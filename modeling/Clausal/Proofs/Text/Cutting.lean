import Clausal.Text.Blank
import Mathlib.Data.List.TakeWhile

/-!
Stripping, words and lines. Blanks around a text change neither what is left of it, nor its words, nor
its lines that are not blank; and what was joined by blanks or line feeds is cut into the same pieces.
-/

set_option autoImplicit false

namespace Clausal.Text

theorem eq_or_exists_mem_of_mem_modifyHead {α : Type} {first item : α} {pieces : List (List α)}
    {piece : List α} (cut : piece ∈ pieces.modifyHead (List.cons first)) (member : item ∈ piece) :
    item = first ∨ ∃ shorter ∈ pieces, item ∈ shorter := by
  cases pieces with
  | nil => cases cut
  | cons head others =>
      rcases List.mem_cons.mp cut with rfl | later
      · exact (List.mem_cons.mp member).imp_right fun deeper => ⟨head, List.mem_cons_self, deeper⟩
      · exact .inr ⟨piece, List.mem_cons_of_mem head later, member⟩

/-- The pieces between separators hold the other items. -/
theorem mem_of_mem_splitOn {α : Type} [DecidableEq α] {separator item : α} {items piece : List α}
    (cut : piece ∈ items.splitOn separator) (member : item ∈ piece) :
    item ∈ items ∧ item ≠ separator := by
  induction items generalizing piece with
  | nil =>
      rw [List.splitOn_nil, List.mem_singleton] at cut
      rw [cut] at member
      cases member
  | cons first rest ih =>
      have fromRest : ∀ piece ∈ rest.splitOn separator, item ∈ piece →
          item ∈ first :: rest ∧ item ≠ separator := fun piece listed inside =>
        (ih listed inside).imp_left (List.mem_cons_of_mem first)
      rw [List.splitOn_cons_eq_if_modifyHead] at cut
      split at cut
      · rcases List.mem_cons.mp cut with rfl | later
        · cases member
        · exact fromRest piece later member
      · next different =>
          rcases eq_or_exists_mem_of_mem_modifyHead cut member with rfl | ⟨shorter, listed, inside⟩
          · exact ⟨List.mem_cons_self, by simpa using different⟩
          · exact fromRest shorter listed inside

/-- What follows without a separator becomes part of the last piece. -/
theorem exists_splitOn_append {α : Type} [DecidableEq α] (separator : α) (items : List α) :
    ∃ front last, ∀ rest, separator ∉ rest →
      (items ++ rest).splitOn separator = front ++ [last ++ rest] := by
  induction items with
  | nil => exact ⟨[], [], fun rest none => List.splitOn_eq_singleton none⟩
  | cons item items ih =>
      obtain ⟨front, last, cut⟩ := ih
      by_cases separates : item = separator
      · refine ⟨[] :: front, last, fun rest none => ?_⟩
        rw [List.cons_append, List.splitOn_cons_eq_if_modifyHead, if_pos (by simpa using separates),
          cut rest none]
        rfl
      · cases front with
        | nil =>
            refine ⟨[], item :: last, fun rest none => ?_⟩
            rw [List.cons_append, List.splitOn_cons_eq_if_modifyHead, if_neg (by simpa using separates),
              cut rest none]
            rfl
        | cons first others =>
            refine ⟨(item :: first) :: others, last, fun rest none => ?_⟩
            rw [List.cons_append, List.splitOn_cons_eq_if_modifyHead, if_neg (by simpa using separates),
              cut rest none]
            rfl

variable {text blanks rest : List Char} {character : Char}

def AllBlank (text : List Char) : Prop := ∀ character ∈ text, isBlank character = true

/-! Stripping. -/

theorem strip_blank_append (blank : AllBlank blanks) (text : List Char) :
    strip (blanks ++ text) = strip text := by
  rw [strip, stripWhere, List.dropWhile_append_of_pos blank, strip, stripWhere]

theorem strip_append_blank (text : List Char) (blank : AllBlank blanks) :
    strip (text ++ blanks) = strip text := by
  have reversed : ∀ character ∈ blanks.reverse, isBlank character = true :=
    fun character member => blank character (List.mem_reverse.mp member)
  rw [strip, stripWhere, List.dropWhile_append, strip, stripWhere]
  split
  · next empty =>
      rw [List.isEmpty_iff.mp empty, List.dropWhile_eq_nil_iff.mpr blank]
  · rw [List.reverse_append, List.dropWhile_append_of_pos reversed]

/-- A text is what is left of it between blanks. -/
theorem exists_blanks_around_strip (text : List Char) :
    ∃ before after, AllBlank before ∧ AllBlank after ∧ text = before ++ strip text ++ after := by
  let opened := text.dropWhile isBlank
  refine ⟨text.takeWhile isBlank, (opened.reverse.takeWhile isBlank).reverse, ?_, ?_, ?_⟩
  · intro character member
    exact List.mem_takeWhile_imp member
  · intro character member
    exact List.mem_takeWhile_imp (List.mem_reverse.mp member)
  · have ended : strip text ++ (opened.reverse.takeWhile isBlank).reverse = opened := by
      rw [strip, stripWhere, ← List.reverse_append, List.takeWhile_append_dropWhile,
        List.reverse_reverse]
    rw [List.append_assoc, ended, List.takeWhile_append_dropWhile]

theorem mem_of_mem_strip (member : character ∈ strip text) : character ∈ text := by
  obtain ⟨before, after, _, _, split⟩ := exists_blanks_around_strip text
  rw [split]
  exact List.mem_append_left after (List.mem_append_right before member)

@[simp] theorem strip_strip (text : List Char) : strip (strip text) = strip text := by
  obtain ⟨before, after, beforeBlank, afterBlank, split⟩ := exists_blanks_around_strip text
  calc
    strip (strip text) = strip (before ++ strip text ++ after) := by
      rw [strip_append_blank _ afterBlank, strip_blank_append beforeBlank]
    _ = strip text := by rw [← split]

/-- A text that begins with a visible character keeps it. -/
theorem strip_cons (visible : isBlank character = false) (rest : List Char) :
    ∃ kept blanks, AllBlank blanks ∧ strip (character :: rest) = character :: kept ∧
      rest = kept ++ blanks := by
  have notBlank : isBlank character ≠ true := by simp [visible]
  obtain ⟨before, after, beforeBlank, afterBlank, split⟩ :=
    exists_blanks_around_strip (character :: rest)
  cases before with
  | cons first others =>
      obtain ⟨rfl, _⟩ := List.cons.inj split
      exact absurd (beforeBlank _ List.mem_cons_self) notBlank
  | nil =>
      cases kept : strip (character :: rest) with
      | nil =>
          rw [kept] at split
          have whole : character :: rest = after := split
          exact absurd (afterBlank character (whole ▸ List.mem_cons_self)) notBlank
      | cons first others =>
          rw [kept] at split
          obtain ⟨rfl, rest⟩ := List.cons.inj split
          exact ⟨others, after, afterBlank, rfl, rest⟩

/-! Words. -/

theorem words_append_cons (text rest : List Char) (blank : isBlank character = true) :
    words (text ++ character :: rest) = words text ++ words rest := by
  rw [words, List.splitOnP_append_cons text rest blank, List.filter_append, words, words]

theorem words_blank_append (blank : AllBlank blanks) (text : List Char) :
    words (blanks ++ text) = words text := by
  induction blanks with
  | nil => rfl
  | cons first others ih =>
      obtain ⟨firstBlank, othersBlank⟩ := List.forall_mem_cons.mp blank
      have cut := words_append_cons [] (others ++ text) firstBlank
      rw [List.cons_append]
      exact cut.trans (ih othersBlank)

theorem words_append_blank (text : List Char) (blank : AllBlank blanks) :
    words (text ++ blanks) = words text := by
  cases blanks with
  | nil => rw [List.append_nil]
  | cons first others =>
      obtain ⟨firstBlank, othersBlank⟩ := List.forall_mem_cons.mp blank
      have none := words_blank_append othersBlank []
      rw [List.append_nil] at none
      rw [words_append_cons text others firstBlank, none]
      exact List.append_nil _

@[simp] theorem words_strip (text : List Char) : words (strip text) = words text := by
  obtain ⟨before, after, beforeBlank, afterBlank, split⟩ := exists_blanks_around_strip text
  calc
    words (strip text) = words (before ++ strip text ++ after) := by
      rw [words_append_blank _ afterBlank, words_blank_append beforeBlank]
    _ = words text := by rw [← split]

/-- Characters that make up one word. -/
structure IsWord (word : List Char) : Prop where
  nonempty : word ≠ []
  visible : ∀ character ∈ word, isBlank character = false

theorem words_of_isWord {word : List Char} (isWord : IsWord word) : words word = [word] := by
  rw [words, List.splitOnP_eq_singleton isWord.visible]
  have nonempty := isWord.nonempty
  cases word with
  | nil => exact absurd rfl nonempty
  | cons first others => rfl

/-- Words that were joined by single spaces are read back. -/
theorem words_intercalate {pieces : List (List Char)} (areWords : ∀ piece ∈ pieces, IsWord piece) :
    words ([' '].intercalate pieces) = pieces := by
  induction pieces with
  | nil => rfl
  | cons piece others ih =>
      obtain ⟨isWord, othersWords⟩ := List.forall_mem_cons.mp areWords
      cases others with
      | nil => simpa using words_of_isWord isWord
      | cons next later =>
          have joined : [' '].intercalate (piece :: next :: later) =
              piece ++ ' ' :: [' '].intercalate (next :: later) := by
            simp [List.intercalate, List.intersperse]
          rw [joined, words_append_cons _ _ (by decide), words_of_isWord isWord, ih othersWords]
          rfl

/-! Lines. -/

/-- The stripped lines that are not empty. -/
def fullLines (text : List Char) : List (List Char) :=
  ((lines text).map strip).filter fun line => !line.isEmpty

theorem lines_append_cons (text rest : List Char) :
    lines (text ++ '\n' :: rest) = lines text ++ lines rest :=
  List.splitOn_append_cons_self text rest

theorem lines_cons (different : character ≠ '\n') (rest : List Char) :
    lines (character :: rest) = (lines rest).modifyHead (character :: ·) := by
  rw [lines, List.splitOn_cons_eq_if_modifyHead, if_neg (by simpa using different), lines]

/-- Texts that were joined by line feeds have the lines of all of them. -/
theorem lines_intercalate {texts : List (List Char)} (nonempty : texts ≠ []) :
    lines (['\n'].intercalate texts) = texts.flatMap lines := by
  induction texts with
  | nil => exact absurd rfl nonempty
  | cons text others ih =>
      cases others with
      | nil => simp
      | cons next later =>
          have joined : ['\n'].intercalate (text :: next :: later) =
              text ++ '\n' :: ['\n'].intercalate (next :: later) := by
            simp [List.intercalate, List.intersperse]
          rw [joined, lines_append_cons, ih (List.cons_ne_nil _ _)]
          rfl

/-- A text whose lines all end in a line feed is cut into these and the nothing behind the last feed. -/
theorem lines_join_feeds {texts : List String} (plain : ∀ text ∈ texts, '\n' ∉ text.toList) :
    lines (String.join (texts.map (· ++ "\n"))).toList = texts.map String.toList ++ [[]] := by
  induction texts with
  | nil => rfl
  | cons text rest ih =>
      obtain ⟨head, others⟩ := List.forall_mem_cons.mp plain
      have joined : (String.join ((text :: rest).map (· ++ "\n"))).toList =
          text.toList ++ '\n' :: (String.join (rest.map (· ++ "\n"))).toList := by
        simp [String.join_cons]
      have alone : lines text.toList = [text.toList] := List.splitOn_eq_singleton head
      rw [joined, lines_append_cons, alone, ih others]
      rfl

/-- What follows a text without a line feed becomes part of its last line. -/
theorem exists_lines_append (text : List Char) :
    ∃ front last, ∀ rest, '\n' ∉ rest → lines (text ++ rest) = front ++ [last ++ rest] :=
  exists_splitOn_append '\n' text

theorem fullLines_append_cons (text rest : List Char) :
    fullLines (text ++ '\n' :: rest) = fullLines text ++ fullLines rest := by
  rw [fullLines, lines_append_cons, List.map_append, List.filter_append, fullLines, fullLines]

theorem fullLines_blank_cons (blank : isBlank character = true) (text : List Char) :
    fullLines (character :: text) = fullLines text := by
  by_cases feed : character = '\n'
  · subst feed
    exact fullLines_append_cons [] text
  · rw [fullLines, lines_cons feed, fullLines]
    cases lines text with
    | nil => rfl
    | cons first others =>
        have same := @strip_blank_append [character] (by simpa [AllBlank]) first
        rw [List.modifyHead_cons, List.map_cons, List.map_cons]
        rw [List.singleton_append] at same
        rw [same]

theorem fullLines_concat_blank (text : List Char) (blank : isBlank character = true) :
    fullLines (text ++ [character]) = fullLines text := by
  by_cases feed : character = '\n'
  · subst feed
    rw [fullLines_append_cons]
    exact List.append_nil _
  · obtain ⟨front, last, cut⟩ := exists_lines_append text
    have longer := cut [character] (by simpa using Ne.symm feed)
    have plain := cut [] (by simp)
    rw [List.append_nil, List.append_nil] at plain
    rw [fullLines, longer, fullLines, plain, List.map_append, List.map_append, List.map_singleton,
      strip_append_blank last (by simpa [AllBlank])]
    rfl

theorem fullLines_blank_append (blank : AllBlank blanks) (text : List Char) :
    fullLines (blanks ++ text) = fullLines text := by
  induction blanks with
  | nil => rfl
  | cons first others ih =>
      obtain ⟨firstBlank, othersBlank⟩ := List.forall_mem_cons.mp blank
      rw [List.cons_append, fullLines_blank_cons firstBlank, ih othersBlank]

theorem fullLines_append_blank (text : List Char) (blank : AllBlank blanks) :
    fullLines (text ++ blanks) = fullLines text := by
  induction blanks generalizing text with
  | nil => rw [List.append_nil]
  | cons first others ih =>
      obtain ⟨firstBlank, othersBlank⟩ := List.forall_mem_cons.mp blank
      rw [List.append_cons, ih _ othersBlank, fullLines_concat_blank text firstBlank]

theorem fullLines_strip (text : List Char) : fullLines (strip text) = fullLines text := by
  obtain ⟨before, after, beforeBlank, afterBlank, split⟩ := exists_blanks_around_strip text
  calc
    fullLines (strip text) = fullLines (before ++ strip text ++ after) := by
      rw [fullLines_append_blank _ afterBlank, fullLines_blank_append beforeBlank]
    _ = fullLines text := by rw [← split]

/-! Line ends. -/

/-- Each carriage return is followed at once by a line feed. -/
def ReturnsPaired (text : List Char) : Prop :=
  ∀ index < text.length, text[index]? = some '\r' → text[index + 1]? = some '\n'

instance (text : List Char) : Decidable (ReturnsPaired text) :=
  inferInstanceAs (Decidable (∀ index < text.length, _))

theorem ReturnsPaired.tail (paired : ReturnsPaired (character :: rest)) : ReturnsPaired rest :=
  fun index below => paired (index + 1) (Nat.succ_lt_succ below)

/-- A line loses at most a carriage return at its end, which is blank. -/
theorem map_strip_lines_append_unifyLineEnds (paired : ReturnsPaired text) {front : List Char}
    (unfinished : '\n' ∉ front) :
    (lines (front ++ unifyLineEnds text)).map strip = (lines (front ++ text)).map strip := by
  -- What is in front are the characters of the line that is not finished yet.
  fun_induction unifyLineEnds text generalizing front with
  | case1 => rfl
  | case2 rest ih =>
      have later : (lines (unifyLineEnds rest)).map strip = (lines rest).map strip :=
        ih paired.tail.tail (List.not_mem_nil (a := '\n'))
      have returned : '\n' ∉ front ++ ['\r'] := by simpa using unfinished
      have ended : strip (front ++ ['\r']) = strip front :=
        strip_append_blank front (List.forall_mem_singleton.mpr rfl)
      have cut : lines (front ++ '\r' :: '\n' :: rest) = lines (front ++ ['\r']) ++ lines rest := by
        rw [List.append_cons, lines_append_cons]
      have whole : lines front = [front] := List.splitOn_eq_singleton unfinished
      have wholeReturned : lines (front ++ ['\r']) = [front ++ ['\r']] :=
        List.splitOn_eq_singleton returned
      rw [lines_append_cons, cut, whole, wholeReturned, List.map_append, List.map_append, later,
        List.map_singleton, List.map_singleton, ended]
  | case3 rest alone ih =>
      have feed : rest[0]? = some '\n' := paired 0 (Nat.zero_lt_succ _) rfl
      obtain ⟨_, others, rfl⟩ := List.exists_cons_of_ne_nil (fun none : rest = [] => by simp [none] at feed)
      cases feed
      exact absurd rfl (alone others)
  | case4 character rest _ _ ih =>
      by_cases feed : character = '\n'
      · subst feed
        have later : (lines (unifyLineEnds rest)).map strip = (lines rest).map strip :=
          ih paired.tail (List.not_mem_nil (a := '\n'))
        rw [lines_append_cons, lines_append_cons, List.map_append, List.map_append, later]
      · rw [List.append_cons, List.append_cons front character rest]
        exact ih paired.tail (by simpa using ⟨unfinished, Ne.symm feed⟩)

/-- Where carriage returns come in pairs with line feeds, the stripped lines stay as they are. -/
theorem map_strip_lines_unifyLineEnds (paired : ReturnsPaired text) :
    (lines (unifyLineEnds text)).map strip = (lines text).map strip :=
  map_strip_lines_append_unifyLineEnds paired (List.not_mem_nil (a := '\n'))

end Clausal.Text
