/-!
# Fields

Text cut into fields at every occurrence of a separator, and fields put together again. A text
without a separator is one field, so there is always at least one.

* `split_ne_nil`: there is a first field.
* `join_split`: cutting loses nothing. `split_join`: fields without the separator are found again.
* `words`: what stands between blanks, however many these are.
-/

namespace IfaceTable.Text

/-- The fields of a text between the occurrences of `sep`. -/
def split (sep : Char) : List Char → List (List Char)
  | [] => [[]]
  | c :: rest =>
    if c = sep then [] :: split sep rest
    else
      match split sep rest with
      | [] => [[c]]
      | field :: fields => (c :: field) :: fields

/-- The fields with `sep` between each two of them. -/
def join (sep : Char) : List (List Char) → List Char
  | [] => []
  | [field] => field
  | field :: fields => field ++ sep :: join sep fields

theorem split_ne_nil (sep : Char) (text : List Char) : split sep text ≠ [] := by
  cases text with
  | nil => simp [split]
  | cons c rest =>
    unfold split
    split
    · simp
    · split <;> simp

theorem join_split (sep : Char) (text : List Char) : join sep (split sep text) = text := by
  induction text with
  | nil => rfl
  | cons c rest ih =>
    obtain ⟨field, fields, h⟩ := List.exists_cons_of_ne_nil (split_ne_nil sep rest)
    rw [h] at ih
    by_cases hc : c = sep
    · simp [split, hc, h, join, ih]
    · cases fields with
      | nil => simp_all [split, join]
      | cons next more => simp_all [split, join]

theorem mem_join {sep c : Char} {fields : List (List Char)} (h : c ∈ join sep fields) :
    c = sep ∨ ∃ field ∈ fields, c ∈ field := by
  induction fields with
  | nil => simp [join] at h
  | cons field fields ih =>
    cases fields with
    | nil => exact .inr ⟨field, List.mem_cons_self, h⟩
    | cons next more =>
      rw [join, List.mem_append, List.mem_cons] at h
      · rcases h with h | h | h
        · exact .inr ⟨field, List.mem_cons_self, h⟩
        · exact .inl h
        · exact (ih h).imp_right fun ⟨other, hmem, hc⟩ =>
            ⟨other, List.mem_cons_of_mem field hmem, hc⟩
      · simp

theorem split_of_not_mem {sep : Char} {field : List Char} (h : sep ∉ field) :
    split sep field = [field] := by
  induction field with
  | nil => rfl
  | cons c rest ih =>
    have hc : c ≠ sep := fun heq => h (heq ▸ List.mem_cons_self)
    rw [split, if_neg hc, ih fun hmem => h (List.mem_cons_of_mem c hmem)]

theorem split_append_cons {sep : Char} {field : List Char} (h : sep ∉ field) (rest : List Char) :
    split sep (field ++ sep :: rest) = field :: split sep rest := by
  induction field with
  | nil => simp [split]
  | cons c field ih =>
    have hc : c ≠ sep := fun heq => h (heq ▸ List.mem_cons_self)
    rw [List.cons_append, split, if_neg hc, ih fun hmem => h (List.mem_cons_of_mem c hmem)]

theorem split_join {sep : Char} {fields : List (List Char)} (hne : fields ≠ [])
    (h : ∀ field ∈ fields, sep ∉ field) : split sep (join sep fields) = fields := by
  induction fields with
  | nil => exact absurd rfl hne
  | cons field fields ih =>
    have hfield : sep ∉ field := h field List.mem_cons_self
    cases fields with
    | nil => exact split_of_not_mem hfield
    | cons next more =>
      rw [join, split_append_cons hfield,
        ih (by simp) fun other hmem => h other (List.mem_cons_of_mem field hmem)]
      simp

/-! ## Words -/

/-- The parts of a text that hold no blank. -/
def words (text : List Char) : List (List Char) := (split ' ' text).filter (· ≠ [])

@[simp] theorem words_blank_cons (text : List Char) : words (' ' :: text) = words text := by
  simp [words, split]

theorem words_blanks_append (n : Nat) (text : List Char) :
    words (List.replicate n ' ' ++ text) = words text := by
  induction n with
  | zero => rfl
  | succ n ih => rw [List.replicate_succ, List.cons_append, words_blank_cons, ih]

theorem words_of_word {word : List Char} (hne : word ≠ []) (h : ' ' ∉ word) :
    words word = [word] := by
  simp [words, split_of_not_mem h, hne]

theorem words_word_append {word : List Char} (hne : word ≠ []) (h : ' ' ∉ word)
    (rest : List Char) : words (word ++ ' ' :: rest) = word :: words rest := by
  simp [words, split_append_cons h, hne]

end IfaceTable.Text
