/-!
# Words of a command line

A command line is cut into words at white space, which is Unicode's class White_Space. Everything
about `words` follows from one equation, `words_append_blank`: a line splits at a blank.
-/

namespace DiskBringup.BootArgs

/-- The code points of White_Space, as ranges with both ends included. -/
def blankRanges : List (Nat × Nat) :=
  [(0x9, 0xD), (0x20, 0x20), (0x85, 0x85), (0xA0, 0xA0), (0x1680, 0x1680), (0x2000, 0x200A),
    (0x2028, 0x2029), (0x202F, 0x202F), (0x205F, 0x205F), (0x3000, 0x3000)]

/-- White space. -/
def isBlank (c : Char) : Bool :=
  blankRanges.any fun (first, last) => first ≤ c.toNat && c.toNat ≤ last

/-- The pieces of a line between its blanks; two neighbouring blanks have an empty one. -/
def pieces : List Char → List (List Char)
  | [] => [[]]
  | c :: rest => if isBlank c then [] :: pieces rest else (pieces rest).modifyHead (c :: ·)

/-- The words of a line, in order. -/
def words (line : List Char) : List (List Char) := (pieces line).filter (· ≠ [])

theorem pieces_ne_nil (line : List Char) : pieces line ≠ [] := by
  induction line with
  | nil => simp [pieces]
  | cons c rest ih =>
    rw [pieces]
    split
    · simp
    · cases h : pieces rest with
      | nil => exact absurd h ih
      | cons p ps => simp

theorem pieces_append_blank {c : Char} (hc : isBlank c = true) (x y : List Char) :
    pieces (x ++ c :: y) = pieces x ++ pieces y := by
  induction x with
  | nil => simp [pieces, hc]
  | cons d x ih =>
    simp only [List.cons_append, pieces, ih]
    split
    · simp
    · cases h : pieces x with
      | nil => exact absurd h (pieces_ne_nil x)
      | cons p ps => simp

/-- A line splits at a blank. -/
theorem words_append_blank {c : Char} (hc : isBlank c = true) (x y : List Char) :
    words (x ++ c :: y) = words x ++ words y := by
  simp [words, pieces_append_blank hc]

@[simp] theorem words_nil : words [] = [] := rfl

/-- A line without blanks is one word, or none if it is empty. -/
theorem words_of_forall_not_blank {w : List Char} (hw : w ≠ [])
    (h : ∀ c ∈ w, isBlank c = false) : words w = [w] := by
  have hp : ∀ w : List Char, (∀ c ∈ w, isBlank c = false) → pieces w = [w] := by
    intro w
    induction w with
    | nil => intro _; rfl
    | cons c w ih =>
      intro h
      simp [pieces, h c (by simp), ih fun d hd => h d (by simp [hd])]
  simp [words, hp w h, hw]

/-- A word is not empty and holds no blank. -/
theorem of_mem_words {line w : List Char} (hw : w ∈ words line) :
    w ≠ [] ∧ ∀ c ∈ w, isBlank c = false := by
  have hp : ∀ line : List Char, ∀ w ∈ pieces line, ∀ c ∈ w, isBlank c = false := by
    intro line
    induction line with
    | nil => simp [pieces]
    | cons c rest ih =>
      intro w hw
      unfold pieces at hw
      split at hw
      · rcases List.mem_cons.1 hw with rfl | hw
        · simp
        · exact ih w hw
      · cases h : pieces rest with
        | nil => exact absurd h (pieces_ne_nil rest)
        | cons p ps =>
          rw [h] at hw
          rcases List.mem_cons.1 hw with rfl | hw
          · intro d hd
            rcases List.mem_cons.1 hd with rfl | hd
            · simp_all
            · exact ih p (by simp [h]) d hd
          · exact ih w (by simp [h, hw])
  have := List.mem_filter.1 hw
  exact ⟨by simpa using this.2, hp line w this.1⟩

/-- Cut a text at the first `sep`, which belongs to neither part. -/
def splitOnce (sep : Char) : List Char → Option (List Char × List Char)
  | [] => none
  | c :: rest =>
    if c = sep then some ([], rest) else (splitOnce sep rest).map fun (a, b) => (c :: a, b)

/-- The first part of a cut has no separator, and the parts with it between are the text. -/
theorem splitOnce_eq_some_iff {sep : Char} {text a b : List Char} :
    splitOnce sep text = some (a, b) ↔ text = a ++ sep :: b ∧ sep ∉ a := by
  induction text generalizing a with
  | nil => simp [splitOnce]
  | cons c rest ih =>
    rw [splitOnce]
    split
    · cases a <;> grind
    · cases a with
      | nil => simp_all
      | cons d a => simp [ih]; grind

theorem splitOnce_eq_none_iff {sep : Char} {text : List Char} :
    splitOnce sep text = none ↔ sep ∉ text := by
  induction text with
  | nil => simp [splitOnce]
  | cons c rest ih =>
    by_cases h : c = sep
    · simp [splitOnce, h]
    · simp [splitOnce, h, ih, Ne.symm h]

end DiskBringup.BootArgs
