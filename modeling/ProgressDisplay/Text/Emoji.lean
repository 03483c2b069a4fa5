import ProgressDisplay.Text.Ligature

/-!
# Emoji of several characters

One emoji may be written as several characters: a base with a skin tone, two letters of a flag, a
black flag with a tag, or emoji bound together by joiners. Text is read from its end, so
`EmojiTail` is what has been read of such an emoji.

* `before?_owed`: the flags in front of a joiner give back at most the columns counted for them.
-/

namespace ProgressDisplay.Text

/-- How many letters of flags stand in front of a joiner. -/
inductive FlagCount where
  | one
  | even
  | odd
  deriving DecidableEq, Repr

/-- What has been read of the tag of a flag, after its end: letters alone, or digits with
letters behind them. -/
inductive Tag where
  | letters (count : Nat)
  | digits (count : Nat)
  deriving DecidableEq, Repr

/-- The part of an emoji that has been read. -/
inductive EmojiTail where
  /-- an emoji, which is complete -/
  | complete
  /-- a skin tone -/
  | skinTone
  /-- one letter of a flag, or several -/
  | flagLetters (several : Bool)
  /-- a joiner in front of an emoji -/
  | joined
  /-- a joiner in front of an emoji, and the enclosing keycap before it -/
  | joinedKeycap
  /-- a joiner in front of an emoji, and letters of flags before it -/
  | joinedFlags (count : FlagCount)
  /-- a joiner in front of an emoji, and a tag before it -/
  | joinedTag (tag : Tag)
  deriving DecidableEq, Repr

def isSkinTone (c : Char) : Bool := 0x1F3FB ≤ c.toNat && c.toNat ≤ 0x1F3FF

/-- Letters of which two name a flag. -/
def isFlagLetter (c : Char) : Bool := 0x1F1E6 ≤ c.toNat && c.toNat ≤ 0x1F1FF

def isTagLetter (c : Char) : Bool := 0xE0061 ≤ c.toNat && c.toNat ≤ 0xE007A

def isTagDigit (c : Char) : Bool := 0xE0030 ≤ c.toNat && c.toNat ≤ 0xE0039

def isTagEnd (c : Char) : Bool := c.toNat = 0xE007F

/-- The flag that a tag belongs to. -/
def isBlackFlag (c : Char) : Bool := c.toNat = 0x1F3F4

namespace Tag

/-- A tag with one more character before it. It has at most six letters, or three digits before
at most four letters. -/
def extended? (c : Char) : Tag → Option Tag
  | .letters n =>
    if isTagLetter c && n < 6 then some (.letters (n + 1))
    else if isTagDigit c && n < 5 then some (.digits 1)
    else none
  | .digits n => if isTagDigit c && n < 3 then some (.digits (n + 1)) else none

/-- Whether a tag is long enough to name a flag. -/
def isWhole : Tag → Bool
  | .letters n => 3 ≤ n
  | .digits n => 3 ≤ n

end Tag

namespace EmojiTail

/-- What a character is the end of. -/
def ofChar? (c : Char) : Option EmojiTail :=
  if isFlagLetter c then some (.flagLetters false)
  else if isSkinTone c then some .skinTone
  else if inRanges emojiByDefault c.toNat then some .complete
  else none

/-- Whether a joiner binds the emoji to one before it. -/
def isBound : EmojiTail → Bool
  | .complete => true
  | .skinTone => true
  | .flagLetters several => several
  | .joinedFlags count => count != .one
  | _ => false

/-- The columns that a letter of a flag adds, and what has been read then. Behind nothing but flag
letters it counts one. In front of a joined emoji each pair of them is part of that emoji, and a
letter left over is not. -/
def beforeFlagLetter? : EmojiTail → Option (Int × EmojiTail)
  | .flagLetters _ => some (1, .flagLetters true)
  | .joined => some (1, .joinedFlags .one)
  | .joinedFlags .one => some (-1, .joinedFlags .even)
  | .joinedFlags .even => some (3, .joinedFlags .odd)
  | .joinedFlags .odd => some (-1, .joinedFlags .even)
  | _ => none

/-- What has been read after a character that adds no column because it is part of the emoji. -/
def beforePart? (c : Char) : EmojiTail → Option EmojiTail
  | .skinTone => if inRanges modifierBases c.toNat then some .complete else none
  | .joined =>
    if c = '\u20E3' then some .joinedKeycap
    else if isSkinTone c then some .skinTone
    else if isTagEnd c then some (.joinedTag (.letters 0))
    else if inRanges emojiByDefault c.toNat then some .complete
    else none
  | .joinedTag tag =>
    if isBlackFlag c && tag.isWhole then some .complete else (tag.extended? c).map .joinedTag
  | _ => none

/-- The columns that a character adds as part of an emoji, and what has been read then. No result
for a character that is no part of it. -/
def before? (c : Char) (e : EmojiTail) : Option (Int × EmojiTail) :=
  if isFlagLetter c then e.beforeFlagLetter?
  else if c = joiner then if e.isBound then some (0, .joined) else none
  else (e.beforePart? c).map ((0, ·))

/-- The columns counted so far that the emoji will not take if it goes on. -/
def owed : EmojiTail → Nat
  | .joinedFlags .one => 1
  | .joinedFlags .odd => 1
  | _ => 0

theorem beforeFlagLetter?_owed {e next : EmojiTail} {change : Int}
    (h : e.beforeFlagLetter? = some (change, next)) : (next.owed : Int) ≤ change + e.owed := by
  unfold beforeFlagLetter? at h
  split at h
  all_goals simp only [Option.some.injEq, Prod.mk.injEq, reduceCtorEq] at h
  all_goals obtain ⟨rfl, rfl⟩ := h
  all_goals simp [owed]

theorem beforePart?_owed {c : Char} {e next : EmojiTail} (h : e.beforePart? c = some next) :
    next.owed = 0 := by
  unfold beforePart? at h
  split at h
  · split at h
    · cases h
      rfl
    · simp at h
  · repeat' split at h
    all_goals simp_all
    all_goals (subst h; rfl)
  · split at h
    · simp_all
      subst h
      rfl
    · obtain ⟨_, _, rfl⟩ := Option.map_eq_some_iff.1 h
      rfl
  · simp at h

theorem before?_owed {c : Char} {e next : EmojiTail} {change : Int}
    (h : e.before? c = some (change, next)) : (next.owed : Int) ≤ change + e.owed := by
  unfold before? at h
  split at h
  · exact beforeFlagLetter?_owed h
  · split at h
    · split at h
      · simp only [Option.some.injEq, Prod.mk.injEq] at h
        obtain ⟨rfl, rfl⟩ := h
        simp [owed]
      · simp at h
    · obtain ⟨part, hp, h⟩ := Option.map_eq_some_iff.1 h
      simp only [Prod.mk.injEq] at h
      obtain ⟨rfl, rfl⟩ := h
      simp [beforePart?_owed hp]

theorem owed_of_ofChar? {c : Char} {e : EmojiTail} (h : ofChar? c = some e) : e.owed = 0 := by
  unfold ofChar? at h
  repeat' split at h
  all_goals simp_all
  all_goals (subst h; rfl)

end EmojiTail

end ProgressDisplay.Text
