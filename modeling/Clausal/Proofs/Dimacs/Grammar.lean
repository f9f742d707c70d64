import Clausal.Dimacs.Reader
import Clausal.Proofs.Dimacs.Numbered
import Clausal.Proofs.Text.Cutting

/-!
The grammar of the DIMACS format, without a state: which lines count, how the integers of all of them are
cut into clauses, and that exactly the texts of this form are read.
-/

set_option autoImplicit false

namespace Clausal.Dimacs

/-! The grammar. -/

/-- Drops empty lines, and all from the first line that begins with a percent sign. -/
def content (lines : List (List Char)) : List (List Char) :=
  (lines.filter fun line => !line.isEmpty).takeWhile fun line => line.head? != some '%'

/-- The stripped lines of a text that count. -/
def contentLines (text : List Char) : List (List Char) := content ((Text.lines text).map Text.strip)

def isComment (line : List Char) : Bool := line.head? == some 'c'

/-- What stands behind the first letter of each comment. -/
def commentTexts (lines : List (List Char)) : List String :=
  (lines.filter isComment).map fun line => String.ofList (Text.strip line.tail)

def dataLines (lines : List (List Char)) : List (List Char) :=
  lines.filter fun line => !isComment line

/-- The pieces between zeros. What follows the last zero counts as a piece unless it is empty. -/
def groups (values : List Int) : List (List Int) :=
  if (values.splitOn 0).getLast? = some [] then (values.splitOn 0).dropLast else values.splitOn 0

/-- The first line of a text declares two counts, and its other lines hold the values. -/
structure Tokenized (text : List Char) (header : List Char) (body : List (List Char))
    (atomCount clauseCount : Int) (values : List Int) : Prop where
  lines : dataLines (contentLines text) = header :: body
  begins : header.head? = some 'p'
  single : ∀ line ∈ body, line.head? ≠ some 'p'
  counts : ∃ first declared counted,
    Text.words header = [first, "cnf".toList, declared, counted] ∧
      Text.readInteger? declared = some atomCount ∧ Text.readInteger? counted = some clauseCount
  tokens : (body.flatMap Text.words).mapM Text.readInteger? = some values

/-- The values keep to the counts that are declared. -/
structure Conforms (text : List Char) (header : List Char) (body : List (List Char))
    (atomCount clauseCount : Int) (values : List Int) : Prop
    extends Tokenized text header body atomCount clauseCount values where
  within : ∀ value ∈ values, value ≠ 0 → (value.natAbs : Int) ≤ atomCount
  total : ((groups values).length : Int) = clauseCount

/-- The literals of a clause: named by the decimal numerals of the integers, positive as they are, and
each only where it first stands. -/
def clauseLiterals (group : List Int) : List Literal :=
  (group.map fun value => ⟨⟨toString value.natAbs⟩, decide (0 < value)⟩).eraseDups

/-! Lines that are read, one after another. -/

namespace Progress

variable {progress later : Progress} {declared : Int} {values : List Int} {line : List Char}
  {lines : List (List Char)}

def withComments (progress : Progress) (comments : List String) : Progress :=
  { progress with comments }

theorem addValues_withComments (comments : List String) :
    (progress.withComments comments).addValues declared values =
      (progress.addValues declared values).map (·.withComments comments) := by
  induction values generalizing progress with
  | nil => rfl
  | cons value rest ih =>
      rw [addValues, addValues]
      split
      · exact @ih { progress with finished := progress.finished ++ [progress.opened], opened := [] }
      · split
        · rfl
        · exact @ih { progress with opened := progress.opened ++ [value] }

theorem addLine_withComments (comments : List String) (line : List Char) :
    (progress.withComments comments).addLine line =
      (progress.addLine line).map (·.withComments comments) := by
  have sameHeader : (progress.withComments comments).header = progress.header := rfl
  unfold addLine
  rw [sameHeader]
  split
  · cases progress.header with
    | some header => rfl
    | none => cases readHeader line <;> rfl
  · cases progress.header with
    | none => rfl
    | some header =>
        cases readValues line with
        | error fault => rfl
        | ok values => exact addValues_withComments comments

theorem foldlM_addLine_withComments (comments : List String) :
    lines.foldlM addLine (progress.withComments comments) =
      (lines.foldlM addLine progress).map (·.withComments comments) := by
  induction lines generalizing progress with
  | nil => rfl
  | cons line rest ih =>
      rw [List.foldlM_cons, List.foldlM_cons, addLine_withComments]
      cases progress.addLine line with
      | error fault => rfl
      | ok next => exact ih

theorem comments_addLine (added : progress.addLine line = .ok later) :
    later.comments = progress.comments := by
  have same := @addLine_withComments progress progress.comments line
  have unchanged : progress.withComments progress.comments = progress := rfl
  rw [unchanged, added] at same
  have whole : later = later.withComments progress.comments := Except.ok.inj same
  rw [whole]
  rfl

end Progress

/-- Reading is to add the lines that are no comments, with the comments set aside. -/
theorem readLines_eq (progress : Progress) (lines : List (List Char)) :
    readLines progress lines =
      ((dataLines (content lines)).foldlM Progress.addLine progress).map fun later =>
        later.withComments (progress.comments ++ commentTexts (content lines)) := by
  induction lines generalizing progress with
  | nil =>
      change Except.ok progress = .ok (progress.withComments (progress.comments ++ []))
      rw [List.append_nil]
      rfl
  | cons line rest ih =>
      unfold readLines
      split
      -- An empty line, a comment, the end of the text, and any other line, in this order.
      · exact ih progress
      · next comment =>
          have setAside : dataLines (content (('c' :: comment) :: rest)) = dataLines (content rest) := rfl
          have collected : commentTexts (content (('c' :: comment) :: rest)) =
              String.ofList (Text.strip comment) :: commentTexts (content rest) := rfl
          have others := ih (progress.withComments
            (progress.comments ++ [String.ofList (Text.strip comment)]))
          rw [Progress.foldlM_addLine_withComments] at others
          rw [setAside, collected]
          refine others.trans ?_
          cases (dataLines (content rest)).foldlM Progress.addLine progress with
          | error fault => rfl
          | ok later => exact congrArg Except.ok (by simp [Progress.withComments])
      · change Except.ok progress = .ok (progress.withComments (progress.comments ++ []))
        rw [List.append_nil]
        rfl
      · next notEmpty notComment notTrailer =>
          obtain ⟨character, others, rfl⟩ := List.exists_cons_of_ne_nil notEmpty
          have visible : character ≠ 'c' := fun same => notComment others (by rw [same])
          have before : character ≠ '%' := fun same => notTrailer others (by rw [same])
          have kept : content ((character :: others) :: rest) = (character :: others) :: content rest := by
            rw [content, List.filter_cons_of_pos rfl, List.takeWhile_cons_of_pos (by simpa), content]
          have isData : isComment (character :: others) = false := by simpa [isComment]
          have added : dataLines (content ((character :: others) :: rest)) =
              (character :: others) :: dataLines (content rest) := by
            rw [kept, dataLines, List.filter_cons_of_pos (by simp [isData]), dataLines]
          have collected : commentTexts (content ((character :: others) :: rest)) =
              commentTexts (content rest) := by
            rw [kept, commentTexts, List.filter_cons_of_neg (by simp [isData]), commentTexts]
          rw [added, collected, List.foldlM_cons]
          cases outcome : progress.addLine (character :: others) with
          | error fault => rfl
          | ok later =>
              have sameComments := Progress.comments_addLine outcome
              exact (ih later).trans (by rw [sameComments]; rfl)

theorem addValues_append (progress : Progress) (declared : Int) (first second : List Int) :
    progress.addValues declared (first ++ second) =
      progress.addValues declared first >>= fun later => later.addValues declared second := by
  induction first generalizing progress with
  | nil => rfl
  | cons value rest ih =>
      rw [List.cons_append, Progress.addValues, Progress.addValues]
      split
      · exact ih _
      · split
        · rfl
        · exact ih _

/-- Two states that hold the same are the same. -/
theorem Progress.eq_of_pieces_eq {later progress : Progress}
    (comments : later.comments = progress.comments) (header : later.header = progress.header)
    (pieces : later.finished ++ [later.opened] = progress.finished ++ [progress.opened]) :
    later = progress := by
  obtain ⟨finished, opened⟩ := List.append_inj' pieces rfl
  cases later
  cases progress
  simp_all

/-- Within the declared variables, values are added to the clauses by cutting them at zeros. -/
theorem addValues_eq_ok_iff {progress later : Progress} {declared : Int} {values : List Int} :
    progress.addValues declared values = .ok later ↔
      (∀ value ∈ values, value ≠ 0 → (value.natAbs : Int) ≤ declared) ∧
        later.comments = progress.comments ∧ later.header = progress.header ∧
        later.finished ++ [later.opened] =
          progress.finished ++ (values.splitOn 0).modifyHead (progress.opened ++ ·) := by
  induction values generalizing progress with
  | nil =>
      have pieces : (List.splitOn 0 []).modifyHead (progress.opened ++ ·) = [progress.opened] :=
        congrArg (· :: []) (List.append_nil progress.opened)
      rw [Progress.addValues, pieces]
      constructor
      · intro same
        cases same
        simp
      · intro described
        obtain ⟨_, comments, header, pieces⟩ := described
        rw [Progress.eq_of_pieces_eq comments header pieces]
  | cons value rest ih =>
      simp only [Progress.addValues, List.splitOn_cons_eq_if_modifyHead, List.forall_mem_cons, beq_iff_eq]
      split
      · next zero =>
          have unchanged : (rest.splitOn 0).modifyHead ([] ++ ·) = rest.splitOn 0 := by
            cases rest.splitOn 0 <;> rfl
          rw [ih, unchanged]
          simp [zero]
      · next nonzero =>
          split
          · next exceeds =>
              constructor
              · intro added
                cases added
              · intro described
                obtain ⟨⟨within, _⟩, _⟩ := described
                exact absurd (within nonzero) (Int.not_le.mpr exceeds)
          · next fits =>
              have joined : ((rest.splitOn 0).modifyHead (List.cons value)).modifyHead (progress.opened ++ ·) =
                  (rest.splitOn 0).modifyHead (progress.opened ++ [value] ++ ·) := by
                cases rest.splitOn 0 <;> simp
              rw [ih, joined]
              exact and_congr_left fun _ =>
                ⟨fun others => ⟨fun _ => Int.not_lt.mp fits, others⟩, And.right⟩

/-- The first value beyond the declared variables is the one that is refused. -/
theorem addValues_eq_undeclared {progress : Progress} {declared : Int} {values : List Int}
    (exceeds : ∃ value ∈ values, value ≠ 0 ∧ declared < (value.natAbs : Int)) :
    ∃ value ∈ values, (value ≠ 0 ∧ declared < (value.natAbs : Int)) ∧
      progress.addValues declared values = .error (.undeclared value declared) := by
  induction values generalizing progress with
  | nil => simp at exceeds
  | cons first rest ih =>
      have later : ∀ next : Progress, ¬ (first ≠ 0 ∧ declared < (first.natAbs : Int)) →
          ∃ value ∈ first :: rest, (value ≠ 0 ∧ declared < (value.natAbs : Int)) ∧
            next.addValues declared rest = .error (.undeclared value declared) := by
        intro next within
        obtain ⟨value, member, beyond⟩ := exceeds
        have inRest : value ∈ rest := by
          refine (List.mem_cons.mp member).resolve_left ?_
          rintro rfl
          exact within beyond
        obtain ⟨found, listed, outcome⟩ := @ih next ⟨value, inRest, beyond⟩
        exact ⟨found, List.mem_cons_of_mem first listed, outcome⟩
      rw [Progress.addValues]
      split
      · next zero => exact later _ fun both => both.1 zero
      · next nonzero =>
          split
          · next beyond => exact ⟨first, List.mem_cons_self, ⟨nonzero, beyond⟩, rfl⟩
          · next within => exact later _ fun both => within both.2

theorem readValues_eq_ok_iff {line : List Char} {values : List Int} :
    readValues line = .ok values ↔ (Text.words line).mapM Text.readInteger? = some values := by
  unfold readValues
  split <;> simp_all

/-- Behind the problem line, lines are added by adding the integers of all their words. -/
theorem foldlM_addLine_eq_addValues {progress : Progress} {header : Header}
    (declared : progress.header = some header) {lines : List (List Char)} {values : List Int}
    (single : ∀ line ∈ lines, line.head? ≠ some 'p')
    (tokens : (lines.flatMap Text.words).mapM Text.readInteger? = some values) :
    lines.foldlM Progress.addLine progress = progress.addValues header.atomCount values := by
  induction lines generalizing progress values with
  | nil =>
      cases tokens
      rfl
  | cons line rest ih =>
      -- A line leaves the header as it is, so that the next is read against the same count.
      obtain ⟨other, others⟩ := List.forall_mem_cons.mp single
      rw [List.flatMap_cons, List.mapM_append] at tokens
      obtain ⟨first, readLine, readRest⟩ := Option.bind_eq_some_iff.mp tokens
      obtain ⟨later, readOthers, joined⟩ := Option.bind_eq_some_iff.mp readRest
      cases joined
      have read : progress.addLine line = progress.addValues header.atomCount first := by
        rw [Progress.addLine, if_neg other, declared]
        simp only [readValues_eq_ok_iff.mpr readLine]
        rfl
      rw [List.foldlM_cons, read, addValues_append]
      cases added : progress.addValues header.atomCount first with
      | error fault => rfl
      | ok next =>
          have kept := (addValues_eq_ok_iff.mp added).2.2.1
          exact ih (kept.trans declared) others readOthers

/-- If lines can be added at all, they are integers and no problem lines. -/
theorem foldlM_addLine_eq_ok_iff {progress later : Progress} {header : Header}
    (declared : progress.header = some header) {lines : List (List Char)} :
    lines.foldlM Progress.addLine progress = .ok later ↔
      (∀ line ∈ lines, line.head? ≠ some 'p') ∧
        ∃ values, (lines.flatMap Text.words).mapM Text.readInteger? = some values ∧
          progress.addValues header.atomCount values = .ok later := by
  constructor
  · intro added
    induction lines generalizing progress with
    | nil => exact ⟨nofun, [], rfl, added⟩
    | cons line rest ih =>
        rw [List.foldlM_cons] at added
        rw [List.forall_mem_cons, List.flatMap_cons, List.mapM_append]
        obtain ⟨next, addedLine, addedRest⟩ := bind_eq_ok added
        rw [Progress.addLine, declared] at addedLine
        split at addedLine
        · cases addedLine
        · next begins =>
            obtain ⟨values, readLine, addedValues⟩ := bind_eq_ok addedLine
            have kept := (addValues_eq_ok_iff.mp addedValues).2.2.1
            obtain ⟨single, others, readRest, addedOthers⟩ := ih (kept.trans declared) addedRest
            refine ⟨⟨begins, single⟩, values ++ others, ?_, ?_⟩
            · rw [readValues_eq_ok_iff.mp readLine, readRest]
              rfl
            · rw [addValues_append, addedValues]
              exact addedOthers
  · rintro ⟨single, values, tokens, added⟩
    rw [foldlM_addLine_eq_addValues declared single tokens, added]

theorem header_of_foldlM_addLine {progress later : Progress} {header : Header}
    (declared : progress.header = some header) {lines : List (List Char)}
    (added : lines.foldlM Progress.addLine progress = .ok later) : later.header = some header := by
  obtain ⟨_, values, _, addedValues⟩ := (foldlM_addLine_eq_ok_iff declared).mp added
  exact (addValues_eq_ok_iff.mp addedValues).2.2.1.trans declared

theorem readHeader_eq_ok_iff {line : List Char} {header : Header} :
    readHeader line = .ok header ↔ ∃ first declared counted,
      Text.words line = [first, "cnf".toList, declared, counted] ∧
        Text.readInteger? declared = some header.atomCount ∧
        Text.readInteger? counted = some header.clauseCount := by
  constructor
  · intro read
    unfold readHeader at read
    split at read
    · next first format declared counted shape =>
        split at read
        · next named =>
            split at read
            · next atomCount clauseCount readDeclared readCounted =>
                cases read
                exact ⟨first, declared, counted, by rw [shape, named], readDeclared, readCounted⟩
            · cases read
        · cases read
    · cases read
  · intro described
    obtain ⟨first, declared, counted, shape, readDeclared, readCounted⟩ := described
    simp [readHeader, shape, readDeclared, readCounted]

/-- Before anything else, the first line has to declare the counts. -/
theorem foldlM_addLine_start_iff {lines : List (List Char)} {later : Progress} {header : Header} :
    (lines.foldlM Progress.addLine {} = .ok later ∧ later.header = some header) ↔
      ∃ first body, lines = first :: body ∧ first.head? = some 'p' ∧
        readHeader first = .ok header ∧
        body.foldlM Progress.addLine { header := some header } = .ok later := by
  constructor
  · rintro ⟨added, declared⟩
    cases lines with
    | nil =>
        cases added
        cases declared
    | cons first body =>
        rw [List.foldlM_cons, Progress.addLine] at added
        obtain ⟨next, addedFirst, addedBody⟩ := bind_eq_ok added
        split at addedFirst
        · next begins =>
            obtain ⟨found, read, same⟩ := bind_eq_ok addedFirst
            cases same
            have kept := header_of_foldlM_addLine rfl addedBody
            cases kept.symm.trans declared
            exact ⟨first, body, rfl, begins, read, addedBody⟩
        · cases addedFirst
  · rintro ⟨first, body, rfl, begins, read, addedBody⟩
    have started : Progress.addLine {} first = .ok { header := some header } := by
      rw [Progress.addLine, if_pos begins]
      simp only [read]
      rfl
    rw [List.foldlM_cons, started]
    exact ⟨addedBody, header_of_foldlM_addLine rfl addedBody⟩

theorem groups_eq {values : List Int} {finished : List (List Int)} {opened : List Int}
    (pieces : finished ++ [opened] = values.splitOn 0) :
    groups values = if opened.isEmpty then finished else finished ++ [opened] := by
  rw [groups, ← pieces, List.getLast?_concat, List.dropLast_concat]
  cases opened <;> rfl

theorem finish_eq_ok_iff {progress : Progress} {document : Document} {values : List Int}
    (pieces : progress.finished ++ [progress.opened] = values.splitOn 0) :
    progress.finish = .ok document ↔
      progress.header = some ⟨document.atomCount, document.clauseCount⟩ ∧
        ((groups values).length : Int) = document.clauseCount ∧
        document.formula = ofIntegers (groups values) ∧
        document.comments = progress.comments := by
  obtain ⟨formula, atomCount, clauseCount, comments⟩ := document
  rw [Progress.finish, ← groups_eq pieces]
  cases declared : progress.header with
  | none => simp
  | some header =>
      obtain ⟨headerAtoms, headerClauses⟩ := header
      simp only [Option.some.injEq, Header.mk.injEq]
      split
      · next same =>
          constructor
          · intro finished
            cases finished
            exact ⟨⟨rfl, rfl⟩, same.symm, rfl, rfl⟩
          · rintro ⟨⟨rfl, rfl⟩, _, rfl, rfl⟩
            rfl
      · next other =>
          constructor
          · intro finished
            cases finished
          · rintro ⟨⟨_, rfl⟩, total, _⟩
            exact absurd total.symm other

/-- What all lines that are no comments come to. -/
theorem foldlM_addLine_iff {lines : List (List Char)} {later : Progress} {header : Header} :
    (lines.foldlM Progress.addLine {} = .ok later ∧ later.header = some header) ↔
      ∃ first body values, lines = first :: body ∧ first.head? = some 'p' ∧
        (∀ line ∈ body, line.head? ≠ some 'p') ∧ readHeader first = .ok header ∧
        (body.flatMap Text.words).mapM Text.readInteger? = some values ∧
        (∀ value ∈ values, value ≠ 0 → (value.natAbs : Int) ≤ header.atomCount) ∧
        later.comments = [] ∧ later.header = some header ∧
        later.finished ++ [later.opened] = values.splitOn 0 := by
  have unchanged : ∀ values : List Int,
      [] ++ (values.splitOn 0).modifyHead ([] ++ ·) = values.splitOn 0 := by
    intro values
    cases values.splitOn 0 <;> rfl
  rw [foldlM_addLine_start_iff]
  constructor
  · rintro ⟨first, body, shape, begins, read, added⟩
    obtain ⟨single, values, tokens, addedValues⟩ := (foldlM_addLine_eq_ok_iff rfl).mp added
    obtain ⟨within, comments, declared, pieces⟩ := addValues_eq_ok_iff.mp addedValues
    exact ⟨first, body, values, shape, begins, single, read, tokens, within, comments, declared,
      pieces.trans (unchanged values)⟩
  · rintro ⟨first, body, values, shape, begins, single, read, tokens, within, comments, declared, pieces⟩
    refine ⟨first, body, shape, begins, read, ?_⟩
    refine (foldlM_addLine_eq_ok_iff rfl).mpr ⟨single, values, tokens, ?_⟩
    exact addValues_eq_ok_iff.mpr ⟨within, comments, declared, pieces.trans (unchanged values).symm⟩

/-- The texts of the grammar are the texts that are read. -/
theorem ofLines_eq_ok_iff {text : List Char} {document : Document} :
    ofLines (Text.lines text) = .ok document ↔ ∃ header body values,
      Conforms text header body document.atomCount document.clauseCount values ∧
        document.formula = ofIntegers (groups values) ∧
        document.comments = commentTexts (contentLines text) := by
  rw [ofLines, readLines_eq]
  constructor
  · intro read
    obtain ⟨progress, added, finished⟩ := bind_eq_ok read
    obtain ⟨later, addedLines, rfl⟩ := map_eq_ok_iff.mp added
    cases declared : later.header with
    | none =>
        rw [Progress.finish, Progress.withComments, declared] at finished
        cases finished
    | some header =>
        obtain ⟨first, body, values, shape, begins, single, readFirst, tokens, within, _, _, pieces⟩ :=
          foldlM_addLine_iff.mp ⟨addedLines, declared⟩
        obtain ⟨counts, total, formula, comments⟩ :=
          (@finish_eq_ok_iff (later.withComments (commentTexts (contentLines text))) _ _ pieces).mp
            finished
        cases declared.symm.trans counts
        exact ⟨first, body, values,
          ⟨⟨shape, begins, single, readHeader_eq_ok_iff.mp readFirst, tokens⟩, within, total⟩,
          formula, comments⟩
  · rintro ⟨first, body, values, conforms, formula, comments⟩
    -- The state that the lines come to holds the pieces of the values.
    have nonempty : values.splitOn 0 ≠ [] := List.splitOn_ne_nil 0 values
    let later : Progress :=
      { header := some ⟨document.atomCount, document.clauseCount⟩
        finished := (values.splitOn 0).dropLast
        opened := (values.splitOn 0).getLast nonempty }
    have pieces : later.finished ++ [later.opened] = values.splitOn 0 :=
      List.dropLast_concat_getLast nonempty
    obtain ⟨added, _⟩ := foldlM_addLine_iff.mpr ⟨first, body, values, conforms.lines, conforms.begins,
      conforms.single, readHeader_eq_ok_iff.mpr conforms.counts, conforms.tokens, conforms.within, rfl,
      rfl, pieces⟩
    change Except.map _ ((dataLines (contentLines text)).foldlM Progress.addLine {}) >>= _ = _
    rw [added]
    exact (@finish_eq_ok_iff (later.withComments (commentTexts (contentLines text))) _ _ pieces).mpr
      ⟨rfl, conforms.total, formula, comments⟩

/-- Blanks around a text are no part of what is read. -/
theorem ofLines_lines_strip (text : List Char) :
    ofLines (Text.lines (Text.strip text)) = ofLines (Text.lines text) := by
  have same : content ((Text.lines (Text.strip text)).map Text.strip) =
      content ((Text.lines text).map Text.strip) :=
    congrArg (fun lines : List (List Char) => lines.takeWhile fun line : List Char => line.head? != some '%')
      (Text.fullLines_strip text)
  rw [ofLines, ofLines, readLines_eq, readLines_eq, same]

theorem parse_eq_ok_iff {text : String} {document : Document} :
    parse text = .ok document ↔ ∃ header body values,
      Conforms text.toList header body document.atomCount document.clauseCount values ∧
        document.formula = ofIntegers (groups values) ∧
        document.comments = commentTexts (contentLines text.toList) := by
  rw [parse, ofLines_lines_strip, ofLines_eq_ok_iff]

/-- A text of this shape is read by adding all its values at once. -/
theorem Tokenized.parse_eq {text : String} {header : List Char} {body : List (List Char)}
    {atomCount clauseCount : Int} {values : List Int}
    (tokenized : Tokenized text.toList header body atomCount clauseCount values) :
    parse text =
      ((Progress.addValues atomCount { header := some ⟨atomCount, clauseCount⟩ } values).map
        (·.withComments (commentTexts (contentLines text.toList)))) >>= Progress.finish := by
  have read : readHeader header = .ok ⟨atomCount, clauseCount⟩ :=
    readHeader_eq_ok_iff.mpr tokenized.counts
  have started : Progress.addLine {} header = .ok { header := some ⟨atomCount, clauseCount⟩ } := by
    rw [Progress.addLine, if_pos tokenized.begins]
    simp only [read]
    rfl
  have added : (dataLines (contentLines text.toList)).foldlM Progress.addLine {} =
      Progress.addValues atomCount { header := some ⟨atomCount, clauseCount⟩ } values := by
    rw [tokenized.lines, List.foldlM_cons, started]
    exact @foldlM_addLine_eq_addValues _ ⟨atomCount, clauseCount⟩ rfl _ _ tokenized.single
      tokenized.tokens
  rw [parse, ofLines_lines_strip, ofLines, readLines_eq, ← added]
  rfl

/-- A formula is known by the literals of its clauses. -/
theorem eq_ofIntegers_iff {formula : Formula} {lists : List (List Int)} :
    formula = ofIntegers lists ↔
      formula.clauses.map Clause.literals = lists.map clauseLiterals := by
  have literals : (lists.map fun group => Clause.ofList (group.map literalOf)).map Clause.literals =
      lists.map clauseLiterals := by
    rw [List.map_map]
    rfl
  have injective : ∀ left right : Clause, left.literals = right.literals → left = right := by
    rintro ⟨left, _⟩ ⟨right, _⟩ same
    cases same
    rfl
  obtain ⟨clauses⟩ := formula
  rw [ofIntegers, Formula.ofLists, List.map_map, Formula.mk.injEq, ← literals, List.map_inj_right injective]
  rfl

/-- Exactly the texts of the grammar are read. The clauses are the groups in order, each with its literals
in order of first occurrence; the comments are kept in order, and the width is the largest number of
literals. -/
theorem parse_eq_ok_iff_conforms (text : String) :
    ((∃ document, parse text = .ok document) ↔ ∃ header body atomCount clauseCount values,
        Conforms text.toList header body atomCount clauseCount values) ∧
      ∀ document, parse text = .ok document ↔ ∃ header body values,
        Conforms text.toList header body document.atomCount document.clauseCount values ∧
          document.formula.clauses.map Clause.literals = (groups values).map clauseLiterals ∧
          document.comments = commentTexts (contentLines text.toList) ∧
          document.width = ((groups values).map fun group => (clauseLiterals group).length).foldr max 0 := by
  constructor
  · constructor
    · rintro ⟨document, read⟩
      obtain ⟨header, body, values, conforms, _⟩ := parse_eq_ok_iff.mp read
      exact ⟨header, body, _, _, values, conforms⟩
    · rintro ⟨header, body, atomCount, clauseCount, values, conforms⟩
      exact ⟨⟨_, atomCount, clauseCount, _⟩,
        parse_eq_ok_iff.mpr ⟨header, body, values, conforms, rfl, rfl⟩⟩
  · intro document
    rw [parse_eq_ok_iff]
    constructor
    · rintro ⟨header, body, values, conforms, formula, comments⟩
      have literals := eq_ofIntegers_iff.mp formula
      refine ⟨header, body, values, conforms, literals, comments, ?_⟩
      have sizes : document.formula.clauses.map Clause.size =
          (groups values).map fun group => (clauseLiterals group).length := by
        have lengths := congrArg (List.map List.length) literals
        rwa [List.map_map, List.map_map] at lengths
      rw [Document.width, Formula.width, sizes]
    · rintro ⟨header, body, values, conforms, literals, comments, _⟩
      exact ⟨header, body, values, conforms, eq_ofIntegers_iff.mpr literals, comments⟩

end Clausal.Dimacs
