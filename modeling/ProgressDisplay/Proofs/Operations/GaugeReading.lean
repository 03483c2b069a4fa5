import Mathlib.Logic.Function.Iterate
import ProgressDisplay.Operations.Gauge
import ProgressDisplay.Text.Numeral

/-!
# What a gauge shows

A gauge rounds down, so that it is full only when all items are finished. It is computed with words
of 64 bits, where a product may be too large and a difference may not fall below zero. Neither
happens as long as the number of items times the width, or times one hundred, is such a word. It is
drawn if its text is no longer than half of what a text may be.

* `share_eq_whole_iff`: a share is the whole exactly if all items are finished.
* `increment?_eq`, `figures?_eq`, `render_eq`: words are wide enough to count and to draw, and there
  is room for the text.
* `exact_iterate_increment`: what a gauge shows after any number of items.
* `not_exact_iterate_increment`: a width that is a word may be too large to be drawn.
-/

namespace ProgressDisplay.Gauge

variable {g : Gauge} {whole : Nat}

/-! ## Shares -/

theorem share_mul_total_le (hpos : 0 < g.total) : g.share whole * g.total ≤ g.current * whole := by
  rw [share, if_neg (Nat.ne_of_gt hpos)]
  exact Nat.div_mul_le_self _ _

theorem lt_share_add_one_mul_total (hpos : 0 < g.total) :
    g.current * whole < (g.share whole + 1) * g.total := by
  rw [share, if_neg (Nat.ne_of_gt hpos), Nat.mul_comm _ g.total]
  exact Nat.lt_mul_div_succ _ hpos

theorem share_of_idle (hidle : g.total = 0) : g.share whole = whole := if_pos hidle

theorem share_eq_whole_iff (h : g.current ≤ g.total) (hwhole : 0 < whole) :
    g.share whole = whole ↔ g.current = g.total := by
  rcases Nat.eq_zero_or_pos g.total with hidle | hpos
  · exact iff_of_true (share_of_idle hidle) (by omega)
  · constructor
    · intro hfull
      have hfloor : g.share whole * g.total ≤ g.current * whole := share_mul_total_le hpos
      rw [hfull, Nat.mul_comm g.current] at hfloor
      exact Nat.le_antisymm h (Nat.le_of_mul_le_mul_left hfloor hwhole)
    · intro hall
      rw [share, if_neg (Nat.ne_of_gt hpos), hall]
      exact Nat.mul_div_cancel_left whole hpos

theorem share_le_share_increment (h : g.current ≤ g.total) (whole : Nat) :
    g.share whole ≤ g.increment.share whole := by
  have hnext : g.current ≤ g.increment.current := Nat.le_min.mpr ⟨Nat.le_succ _, h⟩
  unfold share
  split
  · exact Nat.le_of_eq (if_pos ‹_›).symm
  · rw [if_neg (show g.increment.total ≠ 0 from ‹_›)]
    exact Nat.div_le_div_right (Nat.mul_le_mul_right whole hnext)

theorem increment_of_full (hfull : g.current = g.total) : g.increment = g := by
  have hcurrent : min (g.current + 1) g.total = g.current := by omega
  rw [increment, hcurrent]

theorem iterate_increment (shape : GaugeShape) (activity : String) (total n : Nat) :
    increment^[n] { shape, activity, total } =
      { shape, activity, total, current := min n total } := by
  induction n with
  | zero => rw [Function.iterate_zero_apply, Nat.zero_min]
  | succ n ih =>
    have hnext : min (min n total + 1) total = min (n + 1) total := by omega
    rw [Function.iterate_succ_apply', ih]
    simp only [increment, hnext]

/-! ## Words -/

/-- The items of a gauge are few enough to draw it with words. -/
def Small (g : Gauge) : Prop := g.total * max g.shape.width 100 < Text.bound64

/-- There is room for the text of a gauge while it is drawn. -/
def Short (g : Gauge) : Prop := 2 * g.text.utf8ByteSize ≤ Text.largest

theorem word?_of_lt {n : Nat} (h : n < Text.bound64) : word? n = some n := if_pos h

theorem increment?_eq (h : g.current ≤ g.total) (hsmall : g.Small) :
    g.increment? = some g.increment := by
  have hfew : g.total * 100 < Text.bound64 :=
    Nat.lt_of_le_of_lt (Nat.mul_le_mul_left _ (Nat.le_max_right _ _)) hsmall
  have hword : g.current + 1 < Text.bound64 := by
    unfold Text.bound64 at hfew ⊢
    omega
  rw [increment?, word?_of_lt hword]
  rfl

theorem share?_eq (h : g.current ≤ g.total) (hsmall : g.Small)
    (hwhole : whole ≤ max g.shape.width 100) : g.share? whole = some (g.share whole) := by
  unfold share? share
  split
  · rfl
  · rw [word?_of_lt (Nat.lt_of_le_of_lt (Nat.mul_le_mul h hwhole) hsmall)]
    rfl

theorem short_iff : g.Short ↔ 2 * g.drawnBytes g.figures ≤ Text.largest := by
  rw [Short, text, utf8ByteSize_draw]

/-- Each character of the bar takes a byte at least. -/
theorem room_le_drawnBytes (h : g.current ≤ g.total) : g.room ≤ g.drawnBytes g.figures := by
  have hwithin := share_le h g.shape.width
  have hcomplete : g.share g.shape.width ≤ g.share g.shape.width * g.shape.complete.utf8Size :=
    Nat.le_mul_of_pos_right _ g.shape.complete.utf8Size_pos
  have hincomplete : g.shape.width - g.share g.shape.width ≤
      (g.shape.width - g.share g.shape.width) * g.shape.incomplete.utf8Size :=
    Nat.le_mul_of_pos_right _ g.shape.incomplete.utf8Size_pos
  simp only [room, drawnBytes, figures]
  omega

/-- What is set aside for a short gauge is no more than a text can be. -/
theorem Short.room_le (hshort : g.Short) (h : g.current ≤ g.total) : g.room ≤ Text.largest := by
  have hroom := room_le_drawnBytes h
  have hbytes := short_iff.mp hshort
  omega

theorem figures?_eq (h : g.current ≤ g.total) (hsmall : g.Small) (hshort : g.Short) :
    g.figures? = some g.figures := by
  have hroom : g.room < Text.bound64 := Nat.lt_of_le_of_lt (hshort.room_le h) (by decide)
  rw [figures?, share?_eq h hsmall (Nat.le_max_left _ _), share?_eq h hsmall (Nat.le_max_right _ _),
    Option.bind_some, Option.bind_some, if_pos (share_le h _), word?_of_lt hroom]
  rfl

theorem render_eq (h : g.current ≤ g.total) (hsmall : g.Small) (hshort : g.Short) :
    g.render = some g.text := by
  rw [render, figures?_eq h hsmall hshort]
  exact if_pos ⟨hshort.room_le h, short_iff.mp hshort⟩

/-! ## The gauge as it is drawn -/

/-- A gauge is drawn with so many complete characters, the others behind them, and a percentage. -/
def Looks (g : Gauge) (complete percent : Nat) : Prop :=
  ∃ bar : List Char, bar.length = g.shape.width ∧
    (∀ i c, bar[i]? = some c →
      c = if i < complete then g.shape.complete else g.shape.incomplete) ∧
    g.render = some (g.shape.opening ++ String.ofList bar ++ g.shape.closing ++ " " ++
      Nat.repr percent ++ "% " ++ g.activity)

theorem looks (h : g.current ≤ g.total) (hsmall : g.Small) (hshort : g.Short) :
    g.Looks (g.share g.shape.width) (g.share 100) := by
  have hwithin := share_le h g.shape.width
  refine ⟨List.replicate (g.share g.shape.width) g.shape.complete ++
    List.replicate (g.shape.width - g.share g.shape.width) g.shape.incomplete, ?_, ?_, ?_⟩
  · rw [List.length_append, List.length_replicate, List.length_replicate]
    omega
  · intro i c hc
    rw [List.getElem?_append, List.length_replicate] at hc
    split at hc
    · rw [if_pos ‹_›]
      exact List.eq_of_mem_replicate (List.mem_of_getElem? hc)
    · rw [if_neg ‹_›]
      exact List.eq_of_mem_replicate (List.mem_of_getElem? hc)
  · rw [String.ofList_append, render_eq h hsmall hshort, text, draw]
    simp only [String.append_assoc]
    rfl

/-- A gauge whose numbers come out as they should, with the next item as well. -/
structure Exact (g : Gauge) : Prop where
  counted : g.current ≤ g.total
  next : g.increment? = some g.increment
  shares : ∀ whole ≤ max g.shape.width 100, g.share? whole = some (g.share whole)
  idle : g.total = 0 → ∀ whole, g.share whole = whole
  floor : 0 < g.total → ∀ whole, g.share whole * g.total ≤ g.current * whole ∧
    g.current * whole < (g.share whole + 1) * g.total
  within : ∀ whole, g.share whole ≤ whole
  grows : ∀ whole, g.share whole ≤ g.increment.share whole
  full : ∀ whole, 0 < whole → (g.share whole = whole ↔ g.current = g.total)
  stays : g.current = g.total → g.increment = g

/-- A gauge that is drawn, with these numbers. -/
structure Shown (g : Gauge) : Prop where
  figures : g.figures? =
    some ⟨g.share g.shape.width, g.shape.width - g.share g.shape.width, g.share 100, g.room⟩
  looks : g.Looks (g.share g.shape.width) (g.share 100)

theorem exact_of_counted (h : g.current ≤ g.total) (hsmall : g.Small) : g.Exact where
  counted := h
  next := increment?_eq h hsmall
  shares := fun _ => share?_eq h hsmall
  idle := fun hidle _ => share_of_idle hidle
  floor := fun hpos _ => ⟨share_mul_total_le hpos, lt_share_add_one_mul_total hpos⟩
  within := share_le h
  grows := share_le_share_increment h
  full := fun _ => share_eq_whole_iff h
  stays := increment_of_full

theorem shown_of_short (h : g.current ≤ g.total) (hsmall : g.Small) (hshort : g.Short) :
    g.Shown where
  figures := figures?_eq h hsmall hshort
  looks := looks h hsmall hshort

/-- After any number of items the count stops at the total and the numbers come out as they should,
and if there is room for the text, the gauge is drawn with them. -/
theorem exact_iterate_increment (shape : GaugeShape) (activity : String) (total n : Nat)
    (hsmall : total * max shape.width 100 < Text.bound64) :
    let g := increment^[n] { shape, activity, total }
    g.Exact ∧ g.current = min n total ∧
      (2 * g.text.utf8ByteSize ≤ Text.largest → g.Shown) := by
  rw [iterate_increment]
  have hcounted : min n total ≤ total := Nat.min_le_right n total
  exact ⟨exact_of_counted hcounted hsmall, rfl, shown_of_short hcounted hsmall⟩

theorem exact_iterate_increment_of_two_thirds :
    let g := increment^[2] { activity := "EXECUTING", total := 3 }
    3 * max 13 100 < Text.bound64 ∧ 2 * g.text.utf8ByteSize ≤ Text.largest ∧
      g.Exact ∧ g.current = min 2 3 ∧ g.Shown := by
  intro g
  have hsmall : 3 * max 13 100 < Text.bound64 := by decide
  have hshort : 2 * g.text.utf8ByteSize ≤ Text.largest := by decide
  obtain ⟨hexact, hcurrent, hshown⟩ := exact_iterate_increment {} "EXECUTING" 3 2 hsmall
  exact ⟨hsmall, hshort, hexact, hcurrent, hshown hshort⟩

/-- With one item the numbers of a gauge of this width are words, but no text is as long as its
bar. -/
theorem not_exact_iterate_increment :
    ¬∀ (shape : GaugeShape) (activity : String) (total n : Nat),
      total * max shape.width 100 < Text.bound64 →
        let g := increment^[n] { shape, activity, total }
        g.Exact ∧ g.current = min n total ∧ g.Shown := by
  intro h
  obtain ⟨-, -, hshown⟩ := h { width := 2 ^ 63 } "EXECUTING" 1 0 (by decide)
  rw [Function.iterate_zero_apply] at hshown
  obtain ⟨bar, -, -, hdrawn⟩ := hshown.looks
  have hnone :
      render { shape := { width := 2 ^ 63 }, activity := "EXECUTING", total := 1 } = none := by decide
  rw [hnone] at hdrawn
  cases hdrawn

example : (increment^[2] { activity := "EXECUTING", total := 3 }).render =
    some "<========-----> 66% EXECUTING" := by decide

end ProgressDisplay.Gauge
