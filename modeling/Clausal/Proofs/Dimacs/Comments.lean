import Clausal.Proofs.Dimacs.RoundTrip

/-!
Comments in a written text. A comment is written as it is, so that whatever follows a line feed in it stands
on a line of its own. Comments leave the formula alone if these lines are blank or comments again; otherwise
the formula is not reached.
-/

set_option autoImplicit false

namespace Clausal.Dimacs

variable {clauses : List (List Int)} {atomCount : Int} {comments : List String}

/-! Lines. -/

/-- The stripped lines of a comment behind the first. -/
def furtherLines (comment : String) : List (List Char) :=
  (Text.lines comment.toList).tail.map Text.strip

/-- A line that says nothing about the formula. -/
def Idle (line : List Char) : Prop := line = [] ∨ line.head? = some 'c'

def Inert (comment : String) : Prop := ∀ line ∈ furtherLines comment, Idle line

instance (line : List Char) : Decidable (Idle line) :=
  inferInstanceAs (Decidable (line = [] ∨ line.head? = some 'c'))

instance (comment : String) : Decidable (Inert comment) :=
  inferInstanceAs (Decidable (∀ line ∈ furtherLines comment, Idle line))

/-- Some line of the comments ends the text. -/
def CutOff (comments : List String) : Prop :=
  ∃ comment ∈ comments, ∃ line ∈ furtherLines comment, line.head? = some '%'

/-- The comment lines alone. -/
def commentText (comments : List String) : String :=
  String.intercalate "\n" (comments.map ("c " ++ ·))

/-- The stripped lines that the comments come to. -/
def commentRows (comments : List String) : List (List Char) :=
  comments.flatMap fun comment => (Text.lines (commentLine comment)).map Text.strip

theorem lines_commentLine (comment : String) :
    ∃ first, Text.lines (commentLine comment) =
      ('c' :: ' ' :: first) :: (Text.lines comment.toList).tail := by
  obtain ⟨first, others, pieces⟩ :=
    List.exists_cons_of_ne_nil (List.splitOn_ne_nil '\n' comment.toList)
  have cut : Text.lines comment.toList = first :: others := pieces
  refine ⟨first, ?_⟩
  rw [commentLine, Text.lines_cons (by decide), Text.lines_cons (by decide), cut]
  rfl

/-- The first line of a comment is a comment, and only the further lines can be anything else. -/
theorem forall_mem_commentRows_iff {p : List Char → Prop}
    (first : ∀ line, line.head? = some 'c' → p line) :
    (∀ line ∈ commentRows comments, p line) ↔
      ∀ comment ∈ comments, ∀ line ∈ furtherLines comment, p line := by
  rw [commentRows, List.forall_mem_flatMap]
  refine forall₂_congr fun comment _ => ?_
  obtain ⟨start, cut⟩ := lines_commentLine comment
  have begins : (Text.strip ('c' :: ' ' :: start)).head? = some 'c' := head?_strip rfl (by decide)
  rw [cut, List.map_cons, List.forall_mem_cons]
  exact and_iff_right (first _ begins)

theorem forall_idle_iff :
    (∀ line ∈ commentRows comments, Idle line) ↔ ∀ comment ∈ comments, Inert comment :=
  forall_mem_commentRows_iff fun _ begins => .inr begins

theorem cutOff_iff : CutOff comments ↔ ∃ line ∈ commentRows comments, line.head? = some '%' := by
  have none := @forall_mem_commentRows_iff comments (fun line => line.head? ≠ some '%')
    fun line begins => by simp [begins]
  have both := not_congr none
  simp only [not_forall, Classical.not_not, exists_prop] at both
  exact both.symm

theorem single_writtenLines (clauses : List (List Int)) (atomCount : Int) :
    ∀ line ∈ headerLine atomCount clauses.length :: clauses.map valuesLine, Text.lines line = [line] := by
  intro line member
  apply List.splitOn_eq_singleton
  cases List.mem_cons.mp member with
  | inl same =>
      rw [same]
      exact not_mem_intercalate (areWords_headerWords _ _)
  | inr inBody =>
      obtain ⟨clause, _, rfl⟩ := List.mem_map.mp inBody
      exact not_mem_intercalate (areWords_clauseWords clause)

theorem map_strip_lines_writtenText (clauses : List (List Int)) (atomCount : Int) (comments : List String) :
    (Text.lines (writtenText clauses atomCount comments).toList).map Text.strip =
      commentRows comments ++ Text.strip (headerLine atomCount clauses.length) :: bodyLines clauses := by
  have cut : Text.lines (writtenText clauses atomCount comments).toList =
      (writtenLines clauses atomCount comments).flatMap Text.lines := by
    rw [writtenText, String.toList_intercalate, map_toList_documentLines]
    exact Text.lines_intercalate (by simp [writtenLines])
  have written : (headerLine atomCount clauses.length :: clauses.map valuesLine).flatMap Text.lines =
      headerLine atomCount clauses.length :: clauses.map valuesLine := by
    rw [List.flatMap_def, List.map_congr_left (single_writtenLines clauses atomCount)]
    exact List.flatMap_singleton' _
  rw [cut, writtenLines, List.flatMap_append, written, List.map_append, List.flatMap_map,
    List.map_flatMap, List.map_cons, List.map_map]
  rfl

theorem contentLines_commentText (comments : List String) :
    contentLines (commentText comments).toList = content (commentRows comments) := by
  have lines : (comments.map ("c " ++ ·)).map String.toList = comments.map commentLine := by
    rw [List.map_map]
    refine List.map_congr_left fun comment _ => ?_
    rw [Function.comp_apply, String.toList_append]
    rfl
  rw [contentLines, commentText, String.toList_intercalate, lines]
  cases comments with
  | nil => rfl
  | cons comment others =>
      have cut := @Text.lines_intercalate ((comment :: others).map commentLine) (List.cons_ne_nil _ _)
      rw [commentRows, ← List.map_flatMap, ← List.flatMap_map]
      exact congrArg (fun lines => content (lines.map Text.strip)) cut

/-! What counts of the lines. -/

theorem content_append (front back : List (List Char)) :
    content (front ++ back) =
      if ∃ line ∈ front, line.head? = some '%' then content front else content front ++ content back := by
  induction front with
  | nil => simp [content]
  | cons line others ih =>
      cases line with
      | nil => simpa [content] using ih
      | cons character rest =>
          by_cases ends : character = '%'
          · simp [content, ends]
          · have kept : ∀ lines, content ((character :: rest) :: lines) = (character :: rest) :: content lines := by
              intro lines
              rw [content, List.filter_cons_of_pos rfl, List.takeWhile_cons_of_pos (by simpa using ends), content]
            rw [List.cons_append, kept, kept, ih]
            simp only [List.exists_mem_cons_iff, List.head?_cons, Option.some.injEq, ends, false_or]
            split <;> rfl

/-- A text is read by the lines of it that count. -/
theorem parse_eq_of_contentLines_eq {text other : String}
    (same : contentLines text.toList = contentLines other.toList) : parse text = parse other := by
  have read : ∀ text : String, parse text =
      ((dataLines (contentLines text.toList)).foldlM Progress.addLine {}).map
        (·.withComments (commentTexts (contentLines text.toList))) >>= Progress.finish := by
    intro text
    rw [parse, ofLines_lines_strip, ofLines, readLines_eq]
    rfl
  rw [read, read, same]

theorem contentLines_of_cutOff (cutOff : CutOff comments) :
    contentLines (writtenText clauses atomCount comments).toList =
      contentLines (commentText comments).toList := by
  rw [contentLines, map_strip_lines_writtenText, content_append, if_pos (cutOff_iff.mp cutOff),
    contentLines_commentText]

theorem dataLines_of_not_cutOff (goesOn : ¬ CutOff comments) :
    dataLines (contentLines (writtenText clauses atomCount comments).toList) =
      dataLines (content (commentRows comments)) ++
        Text.strip (headerLine atomCount clauses.length) :: bodyLines clauses := by
  have plain := @dataLines_writtenText clauses atomCount [] nofun
  rw [contentLines, map_strip_lines_writtenText] at plain
  rw [contentLines, map_strip_lines_writtenText, content_append, if_neg (mt cutOff_iff.mpr goesOn),
    dataLines, List.filter_append]
  exact congrArg _ plain

theorem mem_content {line : List Char} {lines : List (List Char)} (goesOn : ∀ line ∈ lines, line.head? ≠ some '%') :
    line ∈ content lines ↔ line ∈ lines ∧ line ≠ [] := by
  rw [content, List.takeWhile_eq_self_iff.mpr]
  · simp
  · intro line member
    simpa using goesOn line (List.mem_filter.mp member).1

theorem dataLines_commentRows_eq_nil_iff (goesOn : ¬ CutOff comments) :
    dataLines (content (commentRows comments)) = [] ↔ ∀ comment ∈ comments, Inert comment := by
  have open' : ∀ line ∈ commentRows comments, line.head? ≠ some '%' := by
    intro line member ends
    exact goesOn (cutOff_iff.mpr ⟨line, member, ends⟩)
  rw [← forall_idle_iff, dataLines, List.filter_eq_nil_iff]
  simp only [mem_content open', isComment]
  constructor
  · intro idle line member
    by_cases empty : line = []
    · exact .inl empty
    · exact .inr (by simpa using idle line ⟨member, empty⟩)
  · intro idle line both
    have comment := (idle line both.1).resolve_left both.2
    simpa using comment

/-! What is read. -/

/-- Two documents that differ in their comments only. -/
def Document.Agrees (document other : Document) : Prop :=
  document.formula = other.formula ∧ document.atomCount = other.atomCount ∧
    document.clauseCount = other.clauseCount

/-- If the further lines are idle, the lines with data are those of a text without comments. -/
theorem tokenized_of_inert (inert : ∀ comment ∈ comments, Inert comment)
    (fits : ∀ value ∈ clauses.flatten, Text.Fits value) (fitsAtoms : Text.Fits atomCount)
    (fitsClauses : Text.Fits (clauses.length : Int)) :
    Tokenized (writtenText clauses atomCount comments).toList
      (Text.strip (headerLine atomCount clauses.length)) (bodyLines clauses) atomCount clauses.length
      (terminated clauses) := by
  have goesOn : ¬ CutOff comments := by
    intro cutOff
    obtain ⟨comment, given, line, member, ends⟩ := cutOff
    cases inert comment given line member with
    | inl empty => simp [empty] at ends
    | inr begins => simp [begins] at ends
  have plain := @tokenized_writtenText clauses atomCount [] nofun fits fitsAtoms fitsClauses
  refine ⟨?_, plain.begins, plain.single, plain.counts, plain.tokens⟩
  rw [dataLines_of_not_cutOff goesOn, (dataLines_commentRows_eq_nil_iff goesOn).mpr inert, List.nil_append]

/-- Lines with data among the comments take the place of the problem line, which may not come again. -/
theorem cutOff_of_parse {document : Document} (active : ¬ ∀ comment ∈ comments, Inert comment)
    (read : parse (writtenText clauses atomCount comments) = .ok document) : CutOff comments := by
  refine Classical.byContradiction fun goesOn => ?_
  obtain ⟨header, body, values, conforms, _⟩ := parse_eq_ok_iff.mp read
  have lines := conforms.lines
  rw [dataLines_of_not_cutOff goesOn] at lines
  cases front : dataLines (content (commentRows comments)) with
  | nil => exact active ((dataLines_commentRows_eq_nil_iff goesOn).mp front)
  | cons first others =>
      rw [front] at lines
      obtain ⟨_, rest⟩ := List.cons.inj lines
      have again : Text.strip (headerLine atomCount clauses.length) ∈ body := by
        rw [← rest]
        exact List.mem_append_right _ List.mem_cons_self
      exact conforms.single _ again (head?_strip_headerLine _ _)

theorem parse_written_agrees_iff (nonzero : ∀ value ∈ clauses.flatten, value ≠ 0)
    (fits : ∀ value ∈ clauses.flatten, Text.Fits value) (fitsAtoms : Text.Fits atomCount)
    (fitsClauses : Text.Fits (clauses.length : Int))
    (within : ∀ value ∈ clauses.flatten, (value.natAbs : Int) ≤ atomCount) {expected : Document}
    (same : expected.Agrees ⟨ofIntegers clauses, atomCount, clauses.length, []⟩) :
    (∃ document, parse (writtenText clauses atomCount comments) = .ok document ∧ document.Agrees expected) ↔
      (∀ comment ∈ comments, Inert comment) ∨
        CutOff comments ∧
          ∃ document, parse (commentText comments) = .ok document ∧ document.Agrees expected := by
  obtain ⟨formula, atoms, total⟩ := same
  constructor
  · intro found
    obtain ⟨document, read, agrees⟩ := found
    by_cases inert : ∀ comment ∈ comments, Inert comment
    · exact .inl inert
    · have cutOff := cutOff_of_parse inert read
      rw [parse_eq_of_contentLines_eq (contentLines_of_cutOff cutOff)] at read
      exact .inr ⟨cutOff, document, read, agrees⟩
  · intro harmless
    cases harmless with
    | inl inert =>
        have tokenized := tokenized_of_inert inert fits fitsAtoms fitsClauses
        exact ⟨_, tokenized.parse_terminated nonzero within, formula.symm, atoms.symm, total.symm⟩
    | inr other =>
        rw [parse_eq_of_contentLines_eq (contentLines_of_cutOff other.1)]
        exact other.2

/-- Whatever the comments are, the text is written. It is read as the formula with its counts just if each
further line of a comment is blank or begins with the letter c, or if the lines of the comments, up to one
that begins with a percent sign, are a text of this formula with these counts themselves. -/
theorem written_comments_harmless_iff (clauses : List (List Int)) (declared : Option Int)
    (comments : List String)
    (given : ∀ clause ∈ clauses, ∀ value ∈ clause, value ≠ 0 ∧ Text.Fits value)
    (covers : ∀ count, declared = some count → Text.Fits count ∧ (highestIndex clauses : Int) ≤ count)
    (fitsClauses : Text.Fits (clauses.length : Int)) :
    ∃ formula plain text document, buildFormula clauses = .ok formula ∧
      write formula declared [] = .ok plain ∧ write formula declared comments = .ok text ∧
      parse plain = .ok document ∧ document.formula = formula ∧
      document.atomCount = declared.getD (highestIndex clauses) ∧ document.clauseCount = clauses.length ∧
      ((∃ other, parse text = .ok other ∧ other.Agrees document) ↔
        (∀ comment ∈ comments, Inert comment) ∨
          CutOff comments ∧ ∃ other, parse (commentText comments) = .ok other ∧ other.Agrees document) := by
  have areIndices : ∀ value ∈ clauses.flatten, IsIndex value := by
    refine List.forall_mem_flatten.mpr fun clause listed value among => ?_
    obtain ⟨nonzero, fits⟩ := given clause listed value among
    exact ⟨nonzero, fits⟩
  have fitsAtoms : Text.Fits (declared.getD (highestIndex clauses)) := by
    cases declared with
    | none => exact fits_highestIndex fun value member => (areIndices value member).fits
    | some count => exact (covers count rfl).1
  have within : ∀ value ∈ clauses.flatten,
      (value.natAbs : Int) ≤ declared.getD (highestIndex clauses) := by
    intro value member
    have bound : (value.natAbs : Int) ≤ highestIndex clauses := Int.ofNat_le.mpr (le_highestIndex member)
    cases declared with
    | none => exact bound
    | some count => exact Int.le_trans bound (covers count rfl).2
  have numbered := numbered_ofIntegers areIndices
  have length := length_integers_ofIntegers clauses
  refine ⟨_, _, _, _, buildFormula_eq fun value member => (areIndices value member).nonzero,
    write_ofIntegers areIndices declared [], write_ofIntegers areIndices declared comments,
    parse_written_ofIntegers nofun areIndices fitsAtoms fitsClauses within, rfl, rfl, rfl, ?_⟩
  refine parse_written_agrees_iff (fun value member => (numbered.isIndex value member).nonzero)
    (fun value member => (numbered.isIndex value member).fits) fitsAtoms (length ▸ fitsClauses) ?_ ?_
  · intro value member
    exact within value ((mem_integers_ofIntegers_iff areIndices).mp member)
  · exact ⟨numbered.ofIntegers_integers.symm, rfl, congrArg Nat.cast length.symm⟩

/-- A comment with a blank line and another comment in it, and one that brings a formula of its own. -/
theorem written_comments_harmless_iff_replaced :
    (∃ text document, write (ofIntegers [[-1]]) none ["note\n\ncontinued"] = .ok text ∧
      parse text = .ok document ∧ document.formula = ofIntegers [[-1]]) ∧
    ∃ text, write (ofIntegers [[-1]]) none ["note\np cnf 1 1\n1 0\n%"] = .ok text ∧
      ¬ ∃ document, parse text = .ok document ∧ document.formula = ofIntegers [[-1]] ∧
        document.atomCount = 1 ∧ document.clauseCount = 1 := by
  have given : ∀ clause ∈ [[-1]], ∀ value ∈ clause, value ≠ 0 ∧ Text.Fits value := by decide
  have built : buildFormula [[-1]] = .ok (ofIntegers [[-1]]) := by decide
  constructor
  · obtain ⟨formula, _, text, document, same, _, written, _, formulaRead, _, _, agrees⟩ :=
      written_comments_harmless_iff [[-1]] none ["note\n\ncontinued"] given nofun (by decide)
    cases built.symm.trans same
    obtain ⟨other, read, sameFormula, _⟩ := agrees.mpr (.inl (by decide))
    exact ⟨text, other, written, read, sameFormula.trans formulaRead⟩
  · obtain ⟨formula, _, text, document, same, _, written, _, formulaRead, atoms, total, agrees⟩ :=
      written_comments_harmless_iff [[-1]] none ["note\np cnf 1 1\n1 0\n%"] given nofun (by decide)
    cases built.symm.trans same
    refine ⟨text, written, fun found => ?_⟩
    obtain ⟨other, read, otherFormula, otherAtoms, otherTotal⟩ := found
    have harmless := agrees.mp ⟨other, read, otherFormula.trans formulaRead.symm,
      otherAtoms.trans atoms.symm, otherTotal.trans total.symm⟩
    cases harmless with
    | inl inert => exact absurd inert (by decide)
    | inr brought =>
        obtain ⟨_, third, readAlone, sameFormula, _⟩ := brought
        have alone : parse (commentText ["note\np cnf 1 1\n1 0\n%"]) =
            .ok ⟨ofIntegers [[1]], 1, 1, ["note"]⟩ := by decide +kernel
        cases alone.symm.trans readAlone
        exact absurd (sameFormula.trans formulaRead) (by decide)

end Clausal.Dimacs
