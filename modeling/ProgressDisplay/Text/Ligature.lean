import ProgressDisplay.Text.Ranges

/-!
# Letters that are drawn as one

In some scripts certain letters that meet are drawn as one sign, which takes fewer columns than
the letters would take apart. Text is read from its end, so a `Ligature` is what has been read of
such a sign: its last letter, and possibly more. The characters that complete the sign stand
before it.

* `before?_owed`: completing a sign gives back at most the columns that were counted for it.
-/

namespace ProgressDisplay.Text

/-- The zero width joiner. -/
def joiner : Char := '\u200D'

/-- The part of a sign that has been read, from its last letter on. In some signs a joiner has to
stand between the letters; `joined` tells that it has been read. -/
inductive Ligature where
  /-- an Arabic alef, which a lam takes in -/
  | alef
  /-- a Hebrew lamed, which a joiner binds to an alef -/
  | lamed (joined : Bool)
  /-- a Buginese ya, which a joiner binds to a vowelled letter -/
  | ya (joined : Bool)
  /-- a joined Buginese ya with the vowel sign before it -/
  | yaWithVowel
  /-- a Tifinagh consonant, which either joiner binds to another -/
  | tifinagh (joined : Bool)
  /-- a Tifinagh consonant with the joiner of its script before it -/
  | tifinaghJoiner
  /-- a Lisu tone letter that may be the second of a pair -/
  | lisuTone
  /-- an Old Turkic i, which a joiner binds to a consonant -/
  | orkhonI (joined : Bool)
  /-- a Khmer letter that may be written below another -/
  | khmerLetter
  deriving DecidableEq, Repr

namespace Ligature

def isTifinagh (c : Char) : Bool := inRanges tifinaghConsonants c.toNat

/-- The sign that a letter may be the end of. -/
def ofLetter? (c : Char) : Option Ligature :=
  if c = '\u05DC' then some (.lamed false)
  else if inRanges alefLetters c.toNat then some .alef
  else if inRanges khmerLetters c.toNat then some .khmerLetter
  else if c = '\u1A10' then some (.ya false)
  else if isTifinagh c then some (.tifinagh false)
  else if c = '\uA4FC' || c = '\uA4FD' then some .lisuTone
  else if c.toNat = 0x10C03 then some (.orkhonI false)
  else none

/-- The sign with a joiner before it. -/
def withJoiner : Ligature → Ligature
  | .lamed _ => .lamed true
  | .ya _ => .ya true
  | .tifinagh _ => .tifinagh true
  | .orkhonI _ => .orkhonI true
  | l => l

/-- The columns that a character of its own adds as the next letter of a sign, and what has then
been read of the sign: nothing more, once it is complete. No result for a character that is no
part of the sign. -/
def beforeLetter? (c : Char) : Ligature → Option (Int × Option Ligature)
  | .lamed true => if c = '\u05D0' then some (0, none) else none
  | .ya true => if c = '\u1A17' then some (0, some .yaWithVowel) else none
  | .yaWithVowel => if c = '\u1A15' then some (0, none) else none
  | .tifinagh joined =>
    if c = '\u2D7F' then some (1, some .tifinaghJoiner)
    else if joined && isTifinagh c then some (0, none) else none
  | .tifinaghJoiner => if isTifinagh c then some (-1, none) else none
  | .lisuTone =>
    if 0xA4F8 ≤ c.toNat && c.toNat ≤ 0xA4FB then some (0, none) else none
  | .orkhonI true => if c.toNat = 0x10C32 then some (0, none) else none
  | .khmerLetter => if c = '\u17D2' then some (-1, none) else none
  | _ => none

/-- As `beforeLetter?`, for any character. Marks that are drawn upon the letters do not come
between them: an alef is seen through all that joining letters are, and the other signs through
what is not drawn at all. -/
def before? (c : Char) (l : Ligature) : Option (Int × Option Ligature) :=
  match l with
  | .alef =>
    if inRanges lamLetters c.toNat then some (0, none)
    else if inRanges zeroWidth c.toNat && !inRanges joiningBarriers c.toNat then some (0, some .alef)
    else none
  | _ =>
    if c = joiner then some (0, some l.withJoiner)
    else if inRanges undrawn c.toNat then some (0, some l)
    else l.beforeLetter? c

/-- The columns counted so far that the completed sign will not take. -/
def owed : Ligature → Nat
  | .tifinaghJoiner => 1
  | .khmerLetter => 1
  | _ => 0

theorem withJoiner_owed (l : Ligature) : l.withJoiner.owed = l.owed := by
  cases l <;> rfl

theorem beforeLetter?_owed {c : Char} {l : Ligature} {change : Int} {next : Option Ligature}
    (h : l.beforeLetter? c = some (change, next)) :
    ((next.elim 0 owed : Nat) : Int) ≤ change + l.owed := by
  unfold beforeLetter? at h
  split at h
  all_goals repeat' split at h
  all_goals simp only [Option.some.injEq, Prod.mk.injEq, reduceCtorEq] at h
  all_goals obtain ⟨rfl, rfl⟩ := h
  all_goals simp [owed]

theorem before?_owed {c : Char} {l : Ligature} {change : Int} {next : Option Ligature}
    (h : l.before? c = some (change, next)) :
    ((next.elim 0 owed : Nat) : Int) ≤ change + l.owed := by
  unfold before? at h
  split at h
  · split at h
    · simp only [Option.some.injEq, Prod.mk.injEq] at h
      obtain ⟨rfl, rfl⟩ := h
      simp
    · split at h
      · simp only [Option.some.injEq, Prod.mk.injEq] at h
        obtain ⟨rfl, rfl⟩ := h
        simp
      · simp at h
  · split at h
    · simp only [Option.some.injEq, Prod.mk.injEq] at h
      obtain ⟨rfl, rfl⟩ := h
      simp [withJoiner_owed]
    · split at h
      · simp only [Option.some.injEq, Prod.mk.injEq] at h
        obtain ⟨rfl, rfl⟩ := h
        simp
      · exact beforeLetter?_owed h

/-- Only a Khmer letter owes columns from the start. -/
theorem owed_of_ofLetter? {c : Char} {l : Ligature} (h : ofLetter? c = some l) :
    l.owed = 0 ∨ (l.owed = 1 ∧ inRanges khmerLetters c.toNat = true) := by
  unfold ofLetter? at h
  repeat' split at h
  all_goals simp_all
  all_goals (subst h; simp [owed])

end Ligature

end ProgressDisplay.Text
