/-!
# Splitting text at a character

`pieces sep text` holds the parts of the text between occurrences of a separator, so there is one
part more than there are separators.

* `intercalate_pieces`: the parts joined by the separator give the text back.
* `not_mem_of_mem_pieces`: no part holds the separator.
-/

namespace ProgressDisplay.Text

/-- Puts a character in front of the first part. -/
def consToFirst (c : Char) : List (List Char) → List (List Char)
  | [] => [[c]]
  | part :: rest => (c :: part) :: rest

def pieces (sep : Char) : List Char → List (List Char)
  | [] => [[]]
  | c :: rest => if c = sep then [] :: pieces sep rest else consToFirst c (pieces sep rest)

theorem pieces_ne_nil (sep : Char) (text : List Char) : pieces sep text ≠ [] := by
  cases text with
  | nil => simp [pieces]
  | cons c rest =>
    simp only [pieces]
    split
    · simp
    · cases pieces sep rest <;> simp [consToFirst]

theorem intercalate_consToFirst (sep c : Char) {parts : List (List Char)} (h : parts ≠ []) :
    [sep].intercalate (consToFirst c parts) = c :: [sep].intercalate parts := by
  match parts with
  | [] => exact absurd rfl h
  | [part] => simp [consToFirst]
  | part :: next :: rest => simp [consToFirst, List.intercalate_cons_cons]

theorem intercalate_pieces (sep : Char) (text : List Char) :
    [sep].intercalate (pieces sep text) = text := by
  induction text with
  | nil => simp [pieces]
  | cons c rest ih =>
    simp only [pieces]
    split
    · rename_i hc
      subst hc
      cases h : pieces c rest with
      | nil => exact absurd h (pieces_ne_nil c rest)
      | cons part parts => rw [List.intercalate_cons_cons, ← h, ih]; simp
    · rw [intercalate_consToFirst sep c (pieces_ne_nil sep rest), ih]

theorem pieces_of_not_mem {sep : Char} {text : List Char} (h : sep ∉ text) :
    pieces sep text = [text] := by
  induction text with
  | nil => rfl
  | cons c rest ih =>
    have hc : c ≠ sep := fun hc => h (hc ▸ List.mem_cons_self)
    have hrest : sep ∉ rest := fun hm => h (List.mem_cons_of_mem c hm)
    rw [pieces, if_neg hc, ih hrest]
    rfl

theorem exists_piece_of_mem {sep c : Char} {text : List Char} (h : c ∈ text) (hne : c ≠ sep) :
    ∃ part ∈ pieces sep text, c ∈ part := by
  induction text with
  | nil => cases h
  | cons d rest ih =>
    have hrest : ∀ part ∈ pieces sep rest, ∃ whole ∈ pieces sep (d :: rest), part ⊆ whole := by
      intro part hpart
      simp only [pieces]
      split
      · exact ⟨part, List.mem_cons_of_mem _ hpart, List.Subset.refl part⟩
      · cases hp : pieces sep rest with
        | nil => exact absurd hp (pieces_ne_nil sep rest)
        | cons first others =>
          rw [hp] at hpart
          rcases List.mem_cons.mp hpart with rfl | hpart
          · exact ⟨d :: part, List.mem_cons_self, List.subset_cons_self d part⟩
          · exact ⟨part, List.mem_cons_of_mem _ hpart, List.Subset.refl part⟩
    rcases List.mem_cons.mp h with rfl | h
    · simp only [pieces, if_neg hne]
      cases hp : pieces sep rest with
      | nil => exact absurd hp (pieces_ne_nil sep rest)
      | cons first others => exact ⟨c :: first, List.mem_cons_self, List.mem_cons_self⟩
    · obtain ⟨part, hpart, hmem⟩ := ih h
      obtain ⟨whole, hwhole, hsub⟩ := hrest part hpart
      exact ⟨whole, hwhole, hsub hmem⟩

theorem mem_of_mem_pieces {sep c : Char} {text part : List Char} (h : part ∈ pieces sep text)
    (hc : c ∈ part) : c ∈ text := by
  induction text generalizing part with
  | nil =>
    obtain rfl := List.mem_singleton.mp h
    exact hc
  | cons d rest ih =>
    simp only [pieces] at h
    split at h
    · rcases List.mem_cons.mp h with rfl | h
      · cases hc
      · exact List.mem_cons_of_mem d (ih h hc)
    · cases hp : pieces sep rest with
      | nil => exact absurd hp (pieces_ne_nil sep rest)
      | cons first others =>
        rw [hp] at h ih
        rcases List.mem_cons.mp h with rfl | h
        · rcases List.mem_cons.mp hc with rfl | hc
          · exact List.mem_cons_self
          · exact List.mem_cons_of_mem d (ih List.mem_cons_self hc)
        · exact List.mem_cons_of_mem d (ih (List.mem_cons_of_mem first h) hc)

theorem not_mem_of_mem_pieces {sep : Char} {text part : List Char} (h : part ∈ pieces sep text) :
    sep ∉ part := by
  induction text generalizing part with
  | nil => simp_all [pieces]
  | cons c rest ih =>
    simp only [pieces] at h
    split at h
    · rcases List.mem_cons.mp h with rfl | h
      · simp
      · exact ih h
    · rename_i hc
      cases hp : pieces sep rest with
      | nil => exact absurd hp (pieces_ne_nil sep rest)
      | cons first others =>
        rw [hp] at h ih
        rcases List.mem_cons.mp h with rfl | h
        · intro hm
          rcases List.mem_cons.mp hm with rfl | hm
          · exact hc rfl
          · exact ih List.mem_cons_self hm
        · exact ih (List.mem_cons_of_mem first h)

end ProgressDisplay.Text
