import Clausal.Proofs.Dimacs.Document
import Clausal.Session.Fault

/-!
Reading what was written. The lines of a written text are known by their first letters and their words,
so that the grammar says what they are read as; from there on no character matters.
-/

set_option autoImplicit false

namespace Clausal.Dimacs

/-! Numerals are words, and no line begins with another letter than its own. -/

theorem first_of_toString (value : Int) : ∃ first rest, (toString value).toList = first :: rest ∧
    (first = '-' ∨ first.isDigit = true) := by
  by_cases nonneg : 0 ≤ value
  · rw [Text.toList_toString_of_nonneg nonneg]
    obtain ⟨first, rest, shape⟩ := List.exists_cons_of_ne_nil
      (Nat.toDigits_ne_nil : Nat.toDigits 10 value.natAbs ≠ [])
    have digit := Text.isDigit_of_mem_toDigits (shape ▸ List.mem_cons_self)
    exact ⟨first, rest, shape, .inr digit⟩
  · rw [Text.toList_toString_of_neg (Int.not_le.mp nonneg)]
    exact ⟨_, _, rfl, .inl rfl⟩

theorem isWord_toString (value : Int) : Text.IsWord (toString value).toList := by
  constructor
  · obtain ⟨first, rest, shape, _⟩ := first_of_toString value
    rw [shape]
    exact List.cons_ne_nil first rest
  · intro character member
    by_cases nonneg : 0 ≤ value
    · rw [Text.toList_toString_of_nonneg nonneg] at member
      exact Text.isBlank_of_isDigit (Text.isDigit_of_mem_toDigits member)
    · rw [Text.toList_toString_of_neg (Int.not_le.mp nonneg)] at member
      rcases List.mem_cons.mp member with rfl | digit
      · decide
      · exact Text.isBlank_of_isDigit (Text.isDigit_of_mem_toDigits digit)

theorem head?_strip {line : List Char} {character : Char} (begins : line.head? = some character)
    (visible : Text.isBlank character = false) : (Text.strip line).head? = some character := by
  obtain ⟨rest, rfl⟩ := List.head?_eq_some_iff.mp begins
  obtain ⟨kept, _, _, same, _⟩ := Text.strip_cons visible rest
  rw [same, List.head?_cons]

theorem head?_intercalate {word : List Char} (nonempty : word ≠ []) (words : List (List Char)) :
    ([' '].intercalate (word :: words)).head? = word.head? := by
  obtain ⟨first, rest, rfl⟩ := List.exists_cons_of_ne_nil nonempty
  cases words <;> simp

/-- Joined words make no new line. -/
theorem not_mem_intercalate {words : List (List Char)} (areWords : ∀ word ∈ words, Text.IsWord word) :
    '\n' ∉ [' '].intercalate words := by
  have absent : ∀ word ∈ words, '\n' ∉ word := by
    intro word member inside
    have visible := (areWords word member).visible '\n' inside
    exact absurd visible (by decide)
  induction words with
  | nil => simp
  | cons word others ih => cases others <;> simp_all

/-! The lines that are written. -/

def commentLine (comment : String) : List Char := 'c' :: ' ' :: comment.toList

def headerWords (atomCount : Int) (clauseCount : Nat) : List (List Char) :=
  [['p'], ['c', 'n', 'f'], (toString atomCount).toList, (toString (clauseCount : Int)).toList]

def headerLine (atomCount : Int) (clauseCount : Nat) : List Char :=
  [' '].intercalate (headerWords atomCount clauseCount)

def clauseWords (clause : List Int) : List (List Char) :=
  (clause ++ [0]).map fun value => (toString value).toList

def valuesLine (clause : List Int) : List Char := [' '].intercalate (clauseWords clause)

def writtenLines (clauses : List (List Int)) (atomCount : Int) (comments : List String) :
    List (List Char) :=
  comments.map commentLine ++ headerLine atomCount clauses.length :: clauses.map valuesLine

def writtenText (clauses : List (List Int)) (atomCount : Int) (comments : List String) : String :=
  String.intercalate "\n" (documentLines clauses atomCount comments)

variable {clauses : List (List Int)} {atomCount : Int} {comments : List String}

theorem map_toList_documentLines (clauses : List (List Int)) (atomCount : Int) (comments : List String) :
    (documentLines clauses atomCount comments).map String.toList =
      writtenLines clauses atomCount comments := by
  have header : ("p cnf " ++ toString atomCount ++ " " ++ toString clauses.length).toList =
      headerLine atomCount clauses.length := by
    have counted : toString (clauses.length : Int) = toString clauses.length := rfl
    rw [headerLine, headerWords, counted]
    simp only [String.toList_append, List.intercalate_cons_cons, List.intercalate_singleton,
      List.append_assoc]
    rfl
  have clause : ∀ clause ∈ clauses, (clauseLine clause).toList = valuesLine clause := by
    intro clause _
    rw [clauseLine, String.toList_intercalate, valuesLine, clauseWords, List.map_append,
      List.map_append, List.map_map]
    rfl
  have comment : ∀ comment ∈ comments, ("c " ++ comment).toList = commentLine comment := by
    intro comment _
    rw [String.toList_append, commentLine]
    rfl
  rw [documentLines, writtenLines, List.map_append, List.map_cons, List.map_map, List.map_map, header]
  exact congrArg₂ _ (List.map_congr_left comment) (congrArg _ (List.map_congr_left clause))

theorem areWords_headerWords (atomCount : Int) (clauseCount : Nat) :
    ∀ word ∈ headerWords atomCount clauseCount, Text.IsWord word := by
  have letter : Text.IsWord ['p'] :=
    ⟨List.cons_ne_nil _ _, List.forall_mem_singleton.mpr (by decide)⟩
  have format : Text.IsWord ['c', 'n', 'f'] := by
    refine ⟨List.cons_ne_nil _ _, ?_⟩
    simp only [List.forall_mem_cons]
    exact ⟨by decide, by decide, by decide, nofun⟩
  simp only [headerWords, List.forall_mem_cons]
  exact ⟨letter, format, isWord_toString _, isWord_toString _, nofun⟩

theorem areWords_clauseWords (clause : List Int) :
    ∀ word ∈ clauseWords clause, Text.IsWord word := by
  intro word member
  obtain ⟨value, _, rfl⟩ := List.mem_map.mp member
  exact isWord_toString value

theorem head?_headerLine (atomCount : Int) (clauseCount : Nat) :
    (headerLine atomCount clauseCount).head? = some 'p' :=
  head?_intercalate (by decide) _

theorem head?_valuesLine (clause : List Int) : ∃ first, (valuesLine clause).head? = some first ∧
    (first = '-' ∨ first.isDigit = true) := by
  obtain ⟨value, others, split⟩ : ∃ value others, clause ++ [0] = value :: others :=
    List.exists_cons_of_ne_nil (by simp)
  obtain ⟨first, rest, shape, numeral⟩ := first_of_toString value
  have isWord := isWord_toString value
  refine ⟨first, ?_, numeral⟩
  rw [valuesLine, clauseWords, split, List.map_cons, head?_intercalate isWord.nonempty, shape]
  rfl

theorem lines_writtenText (single : ∀ comment ∈ comments, '\n' ∉ comment.toList) :
    Text.lines (writtenText clauses atomCount comments).toList =
      writtenLines clauses atomCount comments := by
  rw [writtenText, String.toList_intercalate, map_toList_documentLines]
  refine List.splitOn_intercalate _ ?_ (by simp [writtenLines])
  intro line member
  rcases List.mem_append.mp member with inComments | other
  · obtain ⟨comment, given, rfl⟩ := List.mem_map.mp inComments
    simpa [commentLine] using single comment given
  · rcases List.mem_cons.mp other with rfl | inClauses
    · exact not_mem_intercalate (areWords_headerWords _ _)
    · obtain ⟨clause, _, rfl⟩ := List.mem_map.mp inClauses
      exact not_mem_intercalate (areWords_clauseWords clause)

/-! What the lines are for the grammar. -/

theorem isBlank_of_numeral {first : Char} (numeral : first = '-' ∨ first.isDigit = true) :
    Text.isBlank first = false := by
  rcases numeral with rfl | digit
  · decide
  · exact Text.isBlank_of_isDigit digit

theorem ne_of_numeral {first other : Char} (numeral : first = '-' ∨ first.isDigit = true)
    (letter : other.isDigit = false) (different : '-' ≠ other) : first ≠ other := by
  rcases numeral with rfl | digit
  · exact different
  · exact Text.ne_of_isDigit digit letter

/-- The comment lines of a written text, stripped. -/
def commentLines (comments : List String) : List (List Char) :=
  comments.map fun comment => Text.strip (commentLine comment)

/-- The lines of its clauses, stripped. -/
def bodyLines (clauses : List (List Int)) : List (List Char) :=
  clauses.map fun clause => Text.strip (valuesLine clause)

theorem head?_of_mem_commentLines {line : List Char} (member : line ∈ commentLines comments) :
    line.head? = some 'c' := by
  obtain ⟨comment, _, rfl⟩ := List.mem_map.mp member
  exact head?_strip rfl (by decide)

theorem head?_strip_headerLine (atomCount : Int) (clauseCount : Nat) :
    (Text.strip (headerLine atomCount clauseCount)).head? = some 'p' :=
  head?_strip (head?_headerLine atomCount clauseCount) (by decide)

theorem head?_of_mem_bodyLines {line : List Char} (member : line ∈ bodyLines clauses) :
    ∃ first, line.head? = some first ∧ (first = '-' ∨ first.isDigit = true) := by
  obtain ⟨clause, _, rfl⟩ := List.mem_map.mp member
  obtain ⟨first, begins, numeral⟩ := head?_valuesLine clause
  exact ⟨first, head?_strip begins (isBlank_of_numeral numeral), numeral⟩

theorem content_eq_self {lines : List (List Char)}
    (begin : ∀ line ∈ lines, ∃ first, line.head? = some first ∧ first ≠ '%') :
    content lines = lines := by
  have full : lines.filter (fun line => !line.isEmpty) = lines := by
    refine List.filter_eq_self.mpr fun line member => ?_
    obtain ⟨first, shape, _⟩ := begin line member
    obtain ⟨rest, rfl⟩ := List.head?_eq_some_iff.mp shape
    rfl
  rw [content, full, List.takeWhile_eq_self_iff]
  intro line member
  obtain ⟨first, shape, different⟩ := begin line member
  simpa [shape] using different

theorem contentLines_writtenText (single : ∀ comment ∈ comments, '\n' ∉ comment.toList) :
    contentLines (writtenText clauses atomCount comments).toList =
      commentLines comments ++ Text.strip (headerLine atomCount clauses.length) :: bodyLines clauses := by
  have shape : (writtenLines clauses atomCount comments).map Text.strip =
      commentLines comments ++ Text.strip (headerLine atomCount clauses.length) :: bodyLines clauses := by
    rw [writtenLines, List.map_append, List.map_cons, List.map_map, List.map_map]
    rfl
  rw [contentLines, lines_writtenText single, shape]
  refine content_eq_self fun line member => ?_
  rcases List.mem_append.mp member with inComments | other
  · exact ⟨'c', head?_of_mem_commentLines inComments, by decide⟩
  · rcases List.mem_cons.mp other with rfl | inBody
    · exact ⟨'p', head?_strip_headerLine _ _, by decide⟩
    · obtain ⟨first, begins, numeral⟩ := head?_of_mem_bodyLines inBody
      exact ⟨first, begins, ne_of_numeral numeral (by decide) (by decide)⟩

theorem isComment_of_head? {line : List Char} {first : Char} (begins : line.head? = some first) :
    isComment line = (first == 'c') := by
  rw [isComment, begins]
  rfl

theorem isComment_of_mem_commentLines {line : List Char} (member : line ∈ commentLines comments) :
    isComment line = true := by
  rw [isComment_of_head? (head?_of_mem_commentLines member)]
  rfl

theorem not_isComment_of_mem {line : List Char}
    (member : line ∈ Text.strip (headerLine atomCount clauses.length) :: bodyLines clauses) :
    isComment line = false := by
  rcases List.mem_cons.mp member with rfl | inBody
  · rw [isComment_of_head? (head?_strip_headerLine _ _)]
    rfl
  · obtain ⟨first, begins, numeral⟩ := head?_of_mem_bodyLines inBody
    rw [isComment_of_head? begins]
    exact beq_false_of_ne (ne_of_numeral numeral (by decide) (by decide))

theorem dataLines_writtenText (single : ∀ comment ∈ comments, '\n' ∉ comment.toList) :
    dataLines (contentLines (writtenText clauses atomCount comments).toList) =
      Text.strip (headerLine atomCount clauses.length) :: bodyLines clauses := by
  rw [contentLines_writtenText single, dataLines, List.filter_append, List.filter_eq_nil_iff.mpr,
    List.filter_eq_self.mpr, List.nil_append]
  · intro line member
    rw [not_isComment_of_mem member]
    rfl
  · intro line member
    rw [isComment_of_mem_commentLines member]
    decide

/-- Behind its first letter, a comment line keeps the comment without the blanks around it. -/
theorem strip_tail_commentLine (comment : String) :
    Text.strip (Text.strip (commentLine comment)).tail = Text.strip comment.toList := by
  obtain ⟨rest, blanks, blank, begins, split⟩ :=
    @Text.strip_cons 'c' (by decide) (' ' :: comment.toList)
  rw [commentLine, begins, List.tail_cons]
  calc
    Text.strip rest = Text.strip (' ' :: comment.toList) := by
      rw [split, Text.strip_append_blank rest blank]
    _ = Text.strip comment.toList :=
      @Text.strip_blank_append [' '] (List.forall_mem_singleton.mpr (by decide)) comment.toList

theorem commentTexts_writtenText (single : ∀ comment ∈ comments, '\n' ∉ comment.toList) :
    commentTexts (contentLines (writtenText clauses atomCount comments).toList) =
      comments.map stripped := by
  rw [contentLines_writtenText single, commentTexts, List.filter_append,
    List.filter_eq_self.mpr fun line member => isComment_of_mem_commentLines member,
    List.filter_eq_nil_iff.mpr, List.append_nil, commentLines, List.map_map]
  · exact List.map_congr_left fun comment _ => congrArg String.ofList (strip_tail_commentLine comment)
  · intro line member
    rw [not_isComment_of_mem member]
    decide

/-- The values of a written text: those of the clauses, with a zero behind each clause. -/
def terminated (clauses : List (List Int)) : List Int := clauses.flatMap fun clause => clause ++ [0]

theorem mem_terminated_of_mem {value : Int} (member : value ∈ clauses.flatten) :
    value ∈ terminated clauses := by
  obtain ⟨clause, listed, among⟩ := List.mem_flatten.mp member
  exact List.mem_flatMap.mpr ⟨clause, listed, List.mem_append_left [0] among⟩

theorem eq_zero_or_mem_of_mem_terminated {value : Int} (member : value ∈ terminated clauses) :
    value = 0 ∨ value ∈ clauses.flatten := by
  obtain ⟨clause, listed, inside⟩ := List.mem_flatMap.mp member
  rcases List.mem_append.mp inside with among | zero
  · exact .inr (List.mem_flatten_of_mem listed among)
  · exact .inl (List.mem_singleton.mp zero)

theorem words_valuesLine (clause : List Int) :
    Text.words (Text.strip (valuesLine clause)) = clauseWords clause := by
  rw [Text.words_strip, valuesLine, Text.words_intercalate (areWords_clauseWords clause)]

theorem words_headerLine (atomCount : Int) (clauseCount : Nat) :
    Text.words (Text.strip (headerLine atomCount clauseCount)) = headerWords atomCount clauseCount := by
  rw [Text.words_strip, headerLine, Text.words_intercalate (areWords_headerWords atomCount clauseCount)]

theorem mapM_clauseWords (fits : ∀ value ∈ clauses.flatten, Text.Fits value) :
    (clauses.flatMap clauseWords).mapM Text.readInteger? = some (terminated clauses) := by
  have numerals : clauses.flatMap clauseWords =
      (terminated clauses).map fun value => (toString value).toList := by
    rw [terminated, List.map_flatMap]
    rfl
  have small : ∀ value ∈ terminated clauses, Text.Fits value := by
    intro value member
    rcases eq_zero_or_mem_of_mem_terminated member with rfl | among
    · exact (by decide : 1 ≤ Text.digitLimit)
    · exact fits value among
  rw [numerals, List.mapM_map]
  exact (mapM_eq_pure fun value member => Text.readInteger?_toString (small value member)).trans
    (congrArg some (List.map_id _))

theorem tokenized_writtenText (single : ∀ comment ∈ comments, '\n' ∉ comment.toList)
    (fits : ∀ value ∈ clauses.flatten, Text.Fits value)
    (fitsAtoms : Text.Fits atomCount) (fitsClauses : Text.Fits (clauses.length : Int)) :
    Tokenized (writtenText clauses atomCount comments).toList
      (Text.strip (headerLine atomCount clauses.length)) (bodyLines clauses) atomCount clauses.length
      (terminated clauses) where
  lines := dataLines_writtenText single
  begins := head?_strip_headerLine _ _
  single := by
    intro line member
    obtain ⟨first, begins, numeral⟩ := head?_of_mem_bodyLines member
    rw [begins]
    exact fun same => ne_of_numeral numeral (by decide) (by decide) (Option.some.inj same)
  counts := ⟨_, _, _, words_headerLine _ _, Text.readInteger?_toString fitsAtoms,
    Text.readInteger?_toString fitsClauses⟩
  tokens := by
    rw [bodyLines, List.flatMap_map, funext words_valuesLine]
    exact mapM_clauseWords fits

/-- Clauses that are each closed by a zero are cut apart again. -/
theorem groups_terminated (nonzero : ∀ value ∈ clauses.flatten, value ≠ 0) :
    groups (terminated clauses) = clauses := by
  have pieces : (terminated clauses).splitOn 0 = clauses ++ [[]] := by
    rw [terminated]
    induction clauses with
    | nil => rfl
    | cons clause rest ih =>
        rw [List.flatten_cons, List.forall_mem_append] at nonzero
        have absent : 0 ∉ clause := fun member => nonzero.1 0 member rfl
        rw [List.flatMap_cons, List.append_assoc, List.singleton_append,
          List.splitOn_append_cons_self_of_not_mem absent, ih nonzero.2, List.cons_append]
  rw [groups_eq pieces.symm]
  rfl

/-! What is read. -/

/-- Clauses of nonzero integers within the declared number are read from any text that holds their values. -/
theorem Tokenized.parse_terminated {text : String} {header : List Char} {body : List (List Char)}
    (tokenized : Tokenized text.toList header body atomCount clauses.length (terminated clauses))
    (nonzero : ∀ value ∈ clauses.flatten, value ≠ 0)
    (within : ∀ value ∈ clauses.flatten, (value.natAbs : Int) ≤ atomCount) :
    parse text =
      .ok ⟨ofIntegers clauses, atomCount, clauses.length, commentTexts (contentLines text.toList)⟩ := by
  have cut : groups (terminated clauses) = clauses := groups_terminated nonzero
  refine parse_eq_ok_iff.mpr ⟨_, _, _, ⟨tokenized, ?_, ?_⟩, ?_, rfl⟩
  · intro value member different
    exact within value ((eq_zero_or_mem_of_mem_terminated member).resolve_left different)
  · rw [cut]
  · rw [cut]

theorem parse_writtenText (single : ∀ comment ∈ comments, '\n' ∉ comment.toList)
    (areIndices : ∀ value ∈ clauses.flatten, IsIndex value)
    (fitsAtoms : Text.Fits atomCount) (fitsClauses : Text.Fits (clauses.length : Int))
    (within : ∀ value ∈ clauses.flatten, (value.natAbs : Int) ≤ atomCount) :
    parse (writtenText clauses atomCount comments) =
      .ok ⟨ofIntegers clauses, atomCount, clauses.length, comments.map stripped⟩ := by
  have tokenized := tokenized_writtenText single (fun value member => (areIndices value member).fits)
    fitsAtoms fitsClauses
  rw [← commentTexts_writtenText single]
  exact tokenized.parse_terminated (fun value member => (areIndices value member).nonzero) within

theorem parse_writtenText_undeclared (single : ∀ comment ∈ comments, '\n' ∉ comment.toList)
    (areIndices : ∀ value ∈ clauses.flatten, IsIndex value)
    (fitsAtoms : Text.Fits atomCount) (fitsClauses : Text.Fits (clauses.length : Int))
    (exceeds : ∃ value ∈ clauses.flatten, atomCount < (value.natAbs : Int)) :
    ∃ value ∈ clauses.flatten, atomCount < (value.natAbs : Int) ∧
      parse (writtenText clauses atomCount comments) = .error (.undeclared value atomCount) := by
  have tokenized := tokenized_writtenText single (fun value member => (areIndices value member).fits)
    fitsAtoms fitsClauses
  obtain ⟨index, occurs, above⟩ := exceeds
  obtain ⟨value, member, ⟨nonzero, beyond⟩, refused⟩ := addValues_eq_undeclared
    ⟨index, mem_terminated_of_mem occurs, (areIndices index occurs).nonzero, above⟩
  refine ⟨value, (eq_zero_or_mem_of_mem_terminated member).resolve_left nonzero, beyond, ?_⟩
  rw [tokenized.parse_eq, refused]
  rfl

/-! Formulas that were built of integers. -/

theorem write_ofIntegers (areIndices : ∀ value ∈ clauses.flatten, IsIndex value)
    (declared : Option Int) (comments : List String) :
    write (ofIntegers clauses) declared comments =
      .ok (writtenText (integers (ofIntegers clauses)) (declared.getD (highestIndex clauses))
        comments) := by
  have highest : highestIndex (integers (ofIntegers clauses)) = highestIndex clauses :=
    highestIndex_eq fun value => mem_integers_ofIntegers_iff areIndices
  rw [write, (numbered_ofIntegers areIndices).mapM_intOf?, ← highest]
  rfl

theorem parse_written_ofIntegers (single : ∀ comment ∈ comments, '\n' ∉ comment.toList)
    (areIndices : ∀ value ∈ clauses.flatten, IsIndex value)
    (fitsAtoms : Text.Fits atomCount) (fitsClauses : Text.Fits (clauses.length : Int))
    (within : ∀ value ∈ clauses.flatten, (value.natAbs : Int) ≤ atomCount) :
    parse (writtenText (integers (ofIntegers clauses)) atomCount comments) =
      .ok ⟨ofIntegers clauses, atomCount, clauses.length, comments.map stripped⟩ := by
  have numbered := numbered_ofIntegers areIndices
  have length := length_integers_ofIntegers clauses
  have read := parse_writtenText single numbered.isIndex fitsAtoms (length ▸ fitsClauses)
    fun value member => within value ((mem_integers_ofIntegers_iff areIndices).mp member)
  rwa [numbered.ofIntegers_integers, length] at read

theorem parse_written_ofIntegers_undeclared (single : ∀ comment ∈ comments, '\n' ∉ comment.toList)
    (areIndices : ∀ value ∈ clauses.flatten, IsIndex value)
    (fitsAtoms : Text.Fits atomCount) (fitsClauses : Text.Fits (clauses.length : Int))
    (exceeds : ∃ value ∈ clauses.flatten, atomCount < (value.natAbs : Int)) :
    ∃ value ∈ clauses.flatten, atomCount < (value.natAbs : Int) ∧
      parse (writtenText (integers (ofIntegers clauses)) atomCount comments) =
        .error (.undeclared value atomCount) := by
  have numbered := numbered_ofIntegers areIndices
  have length := length_integers_ofIntegers clauses
  obtain ⟨index, occurs, above⟩ := exceeds
  obtain ⟨value, member, beyond, refused⟩ := parse_writtenText_undeclared single numbered.isIndex
    fitsAtoms (length ▸ fitsClauses) ⟨index, (mem_integers_ofIntegers_iff areIndices).mpr occurs, above⟩
  exact ⟨value, (mem_integers_ofIntegers_iff areIndices).mp member, beyond, refused⟩

/-- Whatever was read can be written, and reads the same. -/
theorem exists_written_of_parse {text : String} {document : Document}
    (read : parse text = .ok document) :
    ∃ written, write document.formula (some document.atomCount) document.comments = .ok written ∧
      parse written = .ok document := by
  obtain ⟨clauses, holds⟩ := exists_holds_of_parse read
  obtain ⟨formula, atomCount, clauseCount, comments⟩ := document
  obtain ⟨rfl, areIndices, within, rfl, fitsAtoms, fitsClauses, readable⟩ := holds
  have kept : comments.map stripped = comments :=
    (List.map_congr_left fun comment member => (readable comment member).2).trans (List.map_id _)
  refine ⟨_, write_ofIntegers areIndices (some atomCount) comments, ?_⟩
  have again := parse_written_ofIntegers (fun comment member => (readable comment member).1) areIndices
    fitsAtoms fitsClauses within
  rwa [kept] at again

/-- What was written of a formula of integers is read as that formula again, and so is what is written of
any document. A number of variables that is given may exceed the indices that occur; if one of these
exceeds it, the text is refused. -/
theorem written_text_reads_back :
    (∀ (clauses : List (List Int)) (declared : Option Int) (comments : List String),
      (∀ clause ∈ clauses, ∀ value ∈ clause, value ≠ 0 ∧ Text.Fits value) →
      (∀ comment ∈ comments, '\n' ∉ comment.toList) →
      (∀ count, declared = some count → Text.Fits count) →
      -- The number of clauses is written as a numeral as well.
      Text.Fits (clauses.length : Int) →
      ∃ formula text, buildFormula clauses = .ok formula ∧
        write formula declared comments = .ok text ∧
        ((∀ count, declared = some count → (highestIndex clauses : Int) ≤ count) →
          ∃ document, parse text = .ok document ∧ document.formula = formula ∧
            document.atomCount = declared.getD (highestIndex clauses) ∧
            document.clauseCount = clauses.length ∧ document.width = formula.width ∧
            document.comments = comments.map stripped) ∧
        (∀ count, declared = some count →
          (∃ value ∈ clauses.flatten, count < (value.natAbs : Int)) →
          ∃ value ∈ clauses.flatten, count < (value.natAbs : Int) ∧
            parse text = .error (.undeclared value count) ∧
            (Session.Fault.dimacs (.undeclared value count)).kind = "ValueError")) ∧
    ∀ text document, parse text = .ok document →
      ∃ written, write document.formula (some document.atomCount) document.comments = .ok written ∧
        parse written = .ok document := by
  refine ⟨?_, fun text document read => exists_written_of_parse read⟩
  intro clauses declared comments given single fitsDeclared fitsClauses
  have areIndices : ∀ value ∈ clauses.flatten, IsIndex value := by
    refine List.forall_mem_flatten.mpr fun clause listed value among => ?_
    obtain ⟨nonzero, fits⟩ := given clause listed value among
    exact ⟨nonzero, fits⟩
  have built := buildFormula_eq fun value member => (areIndices value member).nonzero
  refine ⟨_, _, built, write_ofIntegers areIndices declared comments, ?_, ?_⟩
  · intro covered
    have fitsAtoms : Text.Fits (declared.getD (highestIndex clauses)) := by
      cases declared with
      | none => exact fits_highestIndex fun value member => (areIndices value member).fits
      | some count => exact fitsDeclared count rfl
    have within : ∀ value ∈ clauses.flatten,
        (value.natAbs : Int) ≤ declared.getD (highestIndex clauses) := by
      intro value member
      have bound : (value.natAbs : Int) ≤ highestIndex clauses :=
        Int.ofNat_le.mpr (le_highestIndex member)
      cases declared with
      | none => exact bound
      | some count => exact Int.le_trans bound (covered count rfl)
    exact ⟨_, parse_written_ofIntegers single areIndices fitsAtoms fitsClauses within, rfl, rfl, rfl, rfl,
      rfl⟩
  · rintro count rfl exceeds
    obtain ⟨value, member, beyond, refused⟩ := parse_written_ofIntegers_undeclared single areIndices
      (fitsDeclared count rfl) fitsClauses exceeds
    exact ⟨value, member, beyond, refused, rfl⟩

theorem written_text_reads_back_repeated :
    (∃ formula text, buildFormula [[1, -2, 1], []] = .ok formula ∧
      write formula (some 3) [" note "] = .ok text ∧
      ∃ document, parse text = .ok document ∧ document.formula = formula ∧ document.atomCount = 3 ∧
        document.clauseCount = 2 ∧ document.comments = ["note"]) ∧
    (∃ formula text, buildFormula [[1, -2, 1], []] = .ok formula ∧
      write formula (some 1) [] = .ok text ∧
      ∃ value ∈ [1, -2, 1], 1 < (value.natAbs : Int) ∧ parse text = .error (.undeclared value 1)) ∧
    ∃ document written, parse "p cnf 1 1\n-1" = .ok document ∧
      write document.formula (some document.atomCount) document.comments = .ok written ∧
      parse written = .ok document := by
  have given : ∀ clause ∈ [[1, -2, 1], []], ∀ value ∈ clause, value ≠ 0 ∧ Text.Fits value := by decide
  obtain ⟨whole, rewritten⟩ := written_text_reads_back
  refine ⟨?_, ?_, ?_⟩
  · obtain ⟨formula, text, built, written, reads, _⟩ :=
      whole [[1, -2, 1], []] (some 3) [" note "] given (by decide) (by decide) (by decide)
    obtain ⟨document, read, same, atoms, total, _, comments⟩ := reads (by decide)
    exact ⟨formula, text, built, written, document, read, same, atoms, total, comments.trans (by decide)⟩
  · obtain ⟨formula, text, built, written, _, refuses⟩ :=
      whole [[1, -2, 1], []] (some 1) [] given (by decide) (by decide) (by decide)
    obtain ⟨value, member, beyond, refused, _⟩ := refuses 1 rfl (by decide)
    exact ⟨formula, text, built, written, value, member, beyond, refused⟩
  · obtain ⟨document, read⟩ : ∃ document, parse "p cnf 1 1\n-1" = .ok document :=
      ⟨⟨ofIntegers [[-1]], 1, 1, []⟩, by decide⟩
    obtain ⟨written, wrote, again⟩ := rewritten _ document read
    exact ⟨document, written, read, wrote, again⟩

end Clausal.Dimacs
