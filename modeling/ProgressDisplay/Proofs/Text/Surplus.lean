import Mathlib.Data.List.Chain
import Mathlib.Data.List.TakeWhile
import ProgressDisplay.Text.Width

/-!
# The width of a text against the widths of its characters

Characters that are drawn together mostly take fewer columns than apart. Only two things make a
text wider than its characters taken one by one: a control character, which counts nothing alone
and one column in a text, and a selector of the emoji form behind a character that is narrow
without it. `surplus` counts them.

* `measure_le`: a text takes at most the columns of its characters and one for each such place.
* `surplus_eq_zero`: text over characters that have no such place has no surplus.
-/

namespace ProgressDisplay.Text

/-- The selector of the emoji form, which stands behind the character it selects for. -/
def emojiSelector : Char := '\uFE0F'

/-- Whether a character counts a column in a text, but none alone. -/
def isStray (c : Char) : Bool := isControl c && c != '\n'

/-- Whether a character takes one column alone and two in its emoji form. -/
def widens (c : Char) : Bool := hasVariants c && charWidth c == 1

/-- The columns that a character counts in front of a text beyond those it has alone, at most. -/
def surplusBefore (c : Char) (rest : List Char) : Nat :=
  if isStray c || (widens c && rest.head? == some emojiSelector) then 1 else 0

/-- The places of a text where it may be wider than its characters. -/
def surplus : List Char → Nat
  | [] => 0
  | c :: rest => surplusBefore c rest + surplus rest

/-- The columns of the characters taken one by one. -/
def widthApart : List Char → Nat
  | [] => 0
  | c :: rest => charWidth c + widthApart rest

@[simp] theorem widthApart_cons (c : Char) (rest : List Char) :
    widthApart (c :: rest) = charWidth c + widthApart rest := rfl

/-! ## Tables that have nothing in common -/

/-- Ranges in ascending order of where they begin. -/
def Ascending (ranges : List (Nat × Nat)) : Prop := ranges.IsChain fun r s => r.1 ≤ s.1

instance (ranges : List (Nat × Nat)) : Decidable (Ascending ranges) :=
  inferInstanceAs (Decidable (ranges.IsChain fun r s => r.1 ≤ s.1))

/-- Whether no range of the first list meets one of the second, found by going through both in
order. -/
def disjoint : List (Nat × Nat) → List (Nat × Nat) → Bool
  | [], _ => true
  | r :: rest, second =>
    match second.dropWhile fun s => s.2 < r.1 with
    | [] => true
    | s :: above => decide (r.2 < s.1) && disjoint rest (s :: above)

theorem ascending_cons {r : Nat × Nat} {rest : List (Nat × Nat)} (h : Ascending (r :: rest)) :
    (∀ s ∈ rest, r.1 ≤ s.1) ∧ Ascending rest := by
  have hpairs := List.isChain_iff_pairwise.mp h
  exact ⟨fun s hs => List.rel_of_pairwise_cons hpairs hs,
    List.isChain_iff_pairwise.mpr (List.pairwise_cons.mp hpairs).2⟩

theorem apart_of_disjoint {first second : List (Nat × Nat)} (hfirst : Ascending first)
    (hsecond : Ascending second) (h : disjoint first second = true) :
    ∀ r ∈ first, ∀ s ∈ second, r.2 < s.1 ∨ s.2 < r.1 := by
  induction first generalizing second with
  | nil => simp
  | cons r rest ih =>
    obtain ⟨hlater, hrest⟩ := ascending_cons hfirst
    have hbelow : ∀ q ∈ r :: rest, ∀ s ∈ second.takeWhile fun s => s.2 < r.1, s.2 < q.1 := by
      intro q hq s hs
      have htaken := List.mem_takeWhile_imp hs
      have hs' : s.2 < r.1 := of_decide_eq_true htaken
      rcases List.mem_cons.mp hq with rfl | hq
      · exact hs'
      · exact Nat.lt_of_lt_of_le hs' (hlater q hq)
    have hparts := List.takeWhile_append_dropWhile (p := fun s => s.2 < r.1) (l := second)
    unfold disjoint at h
    intro q hq s hs
    have hmem : s ∈ second.takeWhile _ ++ second.dropWhile _ := hparts.symm ▸ hs
    rcases List.mem_append.mp hmem with htaken | hleft
    · exact .inr (hbelow q hq s htaken)
    · cases hdrop : second.dropWhile fun s => s.2 < r.1 with
      | nil =>
        rw [hdrop] at hleft
        cases hleft
      | cons s₀ above =>
        rw [hdrop] at h hleft hparts
        simp only [Bool.and_eq_true, decide_eq_true_eq] at h
        have habove : Ascending (s₀ :: above) := by
          rw [← hparts] at hsecond
          exact List.IsChain.right_of_append hsecond
        rcases List.mem_cons.mp hq with rfl | hq
        · rcases List.mem_cons.mp hleft with rfl | hlater'
          · exact .inl h.1
          · exact .inl (Nat.lt_of_lt_of_le h.1 ((ascending_cons habove).1 s hlater'))
        · exact ih hrest habove h.2 q hq s hleft

/-! ## Characters with a column of their own -/

theorem charWidth_pos_of_hasVariants {c : Char} (h : hasVariants c = true) : 0 < charWidth c :=
  charWidth_pos_of_inRanges (by decide +kernel)
    (apart_of_disjoint (by decide +kernel) (by decide +kernel) (by decide +kernel)) h

theorem charWidth_pos_of_isFlagLetter {c : Char} (h : isFlagLetter c = true) :
    0 < charWidth c := by
  have hflag : inRanges [(0x1F1E6, 0x1F1FF)] c.toNat = true := by
    simpa [inRanges, isFlagLetter] using h
  exact charWidth_pos_of_inRanges (by decide +kernel) (by decide +kernel) hflag

/-! ## What each character adds -/

/-- The columns that have been counted less than the characters have, and may be counted yet: each
pair of flag letters in front of a joiner takes none, until a third letter counts for all. -/
def Opening.spare : Opening → Nat
  | .emoji (.joinedFlags .even) => 2
  | _ => 0

theorem EmojiTail.beforeFlagLetter?_spare {e next : EmojiTail} {change : Int}
    (h : e.beforeFlagLetter? = some (change, next)) :
    change + (Opening.emoji next).spare ≤ 1 + (Opening.emoji e).spare := by
  unfold EmojiTail.beforeFlagLetter? at h
  split at h
  all_goals simp only [Option.some.injEq, Prod.mk.injEq, reduceCtorEq] at h
  all_goals obtain ⟨rfl, rfl⟩ := h
  all_goals simp [Opening.spare]

theorem EmojiTail.beforePart?_spare {c : Char} {e next : EmojiTail}
    (h : e.beforePart? c = some next) : (Opening.emoji next).spare = 0 := by
  unfold EmojiTail.beforePart? at h
  repeat' split at h
  all_goals simp only [Option.some.injEq, Option.map_eq_some_iff, reduceCtorEq] at h
  all_goals first
    | (subst h; rfl)
    | (obtain ⟨_, _, rfl⟩ := h; rfl)

theorem EmojiTail.before?_spare {c : Char} {e next : EmojiTail} {change : Int}
    (h : e.before? c = some (change, next)) :
    change + (Opening.emoji next).spare ≤ charWidth c + (Opening.emoji e).spare := by
  unfold EmojiTail.before? at h
  split at h
  · rename_i hc
    have hpos := charWidth_pos_of_isFlagLetter hc
    have := EmojiTail.beforeFlagLetter?_spare h
    omega
  · split at h
    · split at h
      · simp only [Option.some.injEq, Prod.mk.injEq] at h
        obtain ⟨rfl, rfl⟩ := h
        have : (Opening.emoji .joined).spare = 0 := rfl
        omega
      · simp at h
    · obtain ⟨part, hp, h⟩ := Option.map_eq_some_iff.1 h
      simp only [Prod.mk.injEq] at h
      obtain ⟨rfl, rfl⟩ := h
      have := EmojiTail.beforePart?_spare hp
      omega

/-- Only the joiner of the Tifinagh letters adds a column to a sign, its own. -/
theorem Ligature.beforeLetter?_le {c : Char} {l : Ligature} {change : Int}
    {next : Option Ligature} (h : l.beforeLetter? c = some (change, next)) :
    change ≤ 0 ∨ (change = 1 ∧ c = '\u2D7F') := by
  unfold Ligature.beforeLetter? at h
  repeat' split at h
  all_goals simp only [Option.some.injEq, Prod.mk.injEq, reduceCtorEq] at h
  all_goals obtain ⟨rfl, rfl⟩ := h
  all_goals simp_all

theorem Ligature.before?_le {c : Char} {l : Ligature} {change : Int} {next : Option Ligature}
    (h : l.before? c = some (change, next)) : change ≤ charWidth c := by
  have hjoiner : charWidth '\u2D7F' = 1 := by decide +kernel
  have hletter : ∀ {change : Int} {next : Option Ligature},
      l.beforeLetter? c = some (change, next) → change ≤ charWidth c := by
    intro change next h
    rcases Ligature.beforeLetter?_le h with hle | ⟨rfl, rfl⟩
    · omega
    · simp [hjoiner]
  unfold Ligature.before? at h
  repeat' split at h
  all_goals first
    | exact hletter h
    | cases h
  all_goals exact Int.natCast_nonneg _

theorem spare_ofChar (c : Char) : (Opening.ofChar c).spare = 0 := by
  unfold Opening.ofChar
  split
  · rfl
  · split
    · rename_i e he
      unfold EmojiTail.ofChar? at he
      repeat' split at he
      all_goals simp only [Option.some.injEq, reduceCtorEq] at he
      all_goals (subst he; rfl)
    · rfl

theorem beforeOpening_le (c : Char) (opening : Opening) :
    (beforeOpening c opening).1 + (beforeOpening c opening).2.spare ≤
      charWidth c + opening.spare := by
  have alone (n : Nat) : (charWidth c : Int) + (Opening.ofChar c).spare ≤ charWidth c + n := by
    rw [spare_ofChar]
    omega
  unfold beforeOpening
  split
  · split
    · rename_i change next h
      simpa [Opening.spare] using Ligature.before?_le h
    · rename_i change h
      simpa [Opening.spare] using Ligature.before?_le h
    · exact alone _
  · split
    · rename_i change next h
      exact EmojiTail.before?_spare h
    · exact alone _
  · exact alone _

theorem spare_selectEmoji (lead : Lead) : lead.selectEmoji.opening.spare = 0 := by
  unfold Lead.selectEmoji
  split <;> simp_all [Opening.spare]

theorem spare_selectText (lead : Lead) : lead.selectText.opening.spare = 0 := by
  unfold Lead.selectText
  split <;> simp_all [Opening.spare]

theorem spare_withoutEmojiForm (lead : Lead) : lead.withoutEmojiForm.opening.spare = 0 := by
  unfold Lead.withoutEmojiForm
  split <;> simp_all [Opening.spare]

/-- A character of the Latin and control ranges has a column of its own, or is a stray one. -/
theorem one_le_of_le_nbsp {c : Char} (hfeed : c ≠ '\n') (hle : c.toNat ≤ 0xA0) (rest : List Char) :
    1 ≤ charWidth c + surplusBefore c rest := by
  cases hcontrol : isControl c with
  | true => simp [surplusBefore, isStray, hcontrol, hfeed]
  | false =>
    have hlow : inRanges [(0, 0xA0)] c.toNat = true := by simpa [inRanges] using hle
    have hzero : inRanges zeroWidth c.toNat = false :=
      inRanges_eq_false_of_apart (by decide +kernel) hlow
    have := charWidth_pos hcontrol hzero
    omega

theorem beforePlain_le (c : Char) (lead : Lead) (rest : List Char) :
    (beforePlain c lead).1 + (beforePlain c lead).2.opening.spare ≤
      charWidth c + surplusBefore c rest + lead.opening.spare := by
  have hemoji := spare_selectEmoji lead
  have htext := spare_selectText lead
  have hopening := beforeOpening_le c lead.opening
  have hother : Opening.other.spare = 0 := rfl
  have hfeed : Opening.lineFeed.spare = 0 := rfl
  unfold beforePlain
  split
  · simp only [hfeed]; omega
  · rename_i hnfeed
    split
    · simp only [hother]; omega
    · split
      · rename_i hle
        have := one_le_of_le_nbsp hnfeed hle rest
        simp only [hother]
        omega
      · split
        · simp only [hemoji]; omega
        · split
          · simp only [htext]; omega
          · split
            · rename_i hnarrow
              have hvariants : hasVariants c = true := by
                simp only [narrowsAsText, Bool.and_eq_true] at hnarrow
                exact hnarrow.2.1.1
              have := charWidth_pos_of_hasVariants hvariants
              simp only [hother]
              omega
            · simp only
              omega

/-- Only a selector of the emoji form leaves its mark on the lead. -/
theorem beforePlain_emojiForm {c : Char} {lead : Lead}
    (h : (beforePlain c lead).2.emojiForm = true) : c = emojiSelector ∨ lead.emojiForm = true := by
  unfold beforePlain at h
  repeat' split at h
  all_goals first
    | exact .inl ‹c = '\uFE0F'›
    | simp at h
  unfold Lead.selectText at h
  split at h
  · exact .inr h
  · simp at h

theorem withoutEmojiForm_emojiForm (lead : Lead) : lead.withoutEmojiForm.emojiForm = false := by
  unfold Lead.withoutEmojiForm
  split <;> rfl

theorem before_emojiForm {c : Char} {lead : Lead} (h : (before c lead).2.emojiForm = true) :
    c = emojiSelector := by
  unfold before at h
  split at h
  · split at h
    · simp at h
    · rcases beforePlain_emojiForm h with hc | hlead
      · exact hc
      · simp [withoutEmojiForm_emojiForm] at hlead
  · rename_i hlead
    rcases beforePlain_emojiForm h with hc | hform
    · exact hc
    · exact absurd hform hlead

theorem head_eq_of_emojiForm {text : List Char} (h : (measure text).2.emojiForm = true) :
    text.head? = some emojiSelector := by
  cases text with
  | nil => simp [measure] at h
  | cons c rest =>
    have hc : c = emojiSelector := before_emojiForm h
    rw [List.head?_cons, hc]

/-- A character in its emoji form takes two columns, of which one may be surplus. -/
theorem two_le_of_hasVariants {c : Char} {rest : List Char} (hvariants : hasVariants c = true)
    (hhead : rest.head? = some emojiSelector) : 2 ≤ charWidth c + surplusBefore c rest := by
  have hpos := charWidth_pos_of_hasVariants hvariants
  by_cases hone : charWidth c = 1
  · simp [surplusBefore, widens, hvariants, hone, hhead]
  · omega

theorem before_le (c : Char) (rest : List Char) :
    (before c (measure rest).2).1 + (before c (measure rest).2).2.opening.spare ≤
      charWidth c + surplusBefore c rest + (measure rest).2.opening.spare := by
  unfold before
  split
  · rename_i hform
    split
    · rename_i hvariants
      have := two_le_of_hasVariants hvariants (head_eq_of_emojiForm hform)
      have hcomplete : (Opening.emoji .complete).spare = 0 := rfl
      simp only [hcomplete]
      split <;> omega
    · have := beforePlain_le c (measure rest).2.withoutEmojiForm rest
      rw [spare_withoutEmojiForm] at this
      omega
  · exact beforePlain_le c (measure rest).2 rest

/-! ## Whole texts -/

theorem measure_add_spare_le (text : List Char) :
    (measure text).1 + (measure text).2.opening.spare ≤ widthApart text + surplus text := by
  induction text with
  | nil => exact Int.le_refl 0
  | cons c rest ih =>
    have hc := before_le c rest
    have hmeasure := measure_cons c rest
    have hlead : (measure (c :: rest)).2 = (before c (measure rest).2).2 := rfl
    simp only [surplus, widthApart_cons, hlead]
    omega

/-- A text takes at most the columns of its characters and its surplus. -/
theorem measure_le (text : List Char) : (measure text).1 ≤ widthApart text + surplus text := by
  have := measure_add_spare_le text
  omega

theorem surplus_eq_zero {text : List Char} (hstray : ∀ c ∈ text, isStray c = false)
    (hwidens : emojiSelector ∈ text → ∀ c ∈ text, widens c = false) : surplus text = 0 := by
  induction text with
  | nil => rfl
  | cons c rest ih =>
    have hrest : surplus rest = 0 :=
      ih (fun d hd => hstray d (List.mem_cons_of_mem c hd))
        fun hm d hd => hwidens (List.mem_cons_of_mem c hm) d (List.mem_cons_of_mem c hd)
    have hc : ¬(isStray c || (widens c && rest.head? == some emojiSelector)) = true := by
      intro h
      simp only [hstray c List.mem_cons_self, Bool.false_or, Bool.and_eq_true, beq_iff_eq] at h
      have hm : emojiSelector ∈ rest := List.mem_of_mem_head? h.2
      simp [hwidens (List.mem_cons_of_mem c hm) c List.mem_cons_self] at h
    rw [surplus, hrest, surplusBefore, if_neg hc]

/-! ## Texts that have a surplus -/

theorem charWidth_of_isStray {c : Char} (h : isStray c = true) : charWidth c = 0 := by
  simp only [isStray, Bool.and_eq_true] at h
  simp [charWidth, h.1]

/-- A stray character before no line feed counts one column. -/
theorem beforePlain_of_isStray {c : Char} {lead : Lead} (h : isStray c = true)
    (hlead : lead.opening = .other) : beforePlain c lead = (1, {}) := by
  simp only [isStray, isControl, Bool.and_eq_true, Bool.or_eq_true, decide_eq_true_eq,
    bne_iff_ne, ne_eq] at h
  have hle : c.toNat ≤ 0xA0 := by omega
  simp [beforePlain, h.2, hlead, hle]

/-- Two stray characters take two columns, none of which they have alone. -/
theorem measure_of_isStray {c : Char} (h : isStray c = true) : (measure [c, c]).1 = 2 := by
  simp [measure, before, beforePlain_of_isStray h]

theorem charWidth_emojiSelector : charWidth emojiSelector = 0 := by decide +kernel

/-- In its emoji form a character takes two columns. -/
theorem measure_of_hasVariants {c : Char} (h : hasVariants c = true) :
    (measure [c, emojiSelector]).1 = 2 := by
  have hselector : measure [emojiSelector] = (0, { emojiForm := true }) := by decide +kernel
  rw [measure_cons, hselector]
  simp [before, h, Lead.bindsEmoji]

end ProgressDisplay.Text
