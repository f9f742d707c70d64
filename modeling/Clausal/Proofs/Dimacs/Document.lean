import Clausal.Proofs.Dimacs.Grammar

/-!
What holds of every document that is read: its clauses stand for integers within the declared number of
variables, its counts have numerals that can be read, and its comments are single stripped lines.
-/

set_option autoImplicit false

namespace Clausal.Dimacs

def stripped (comment : String) : String := String.ofList (Text.strip comment.toList)

/-- The document has the formula of the given integers, and everything in it can be written. -/
structure Document.Holds (document : Document) (clauses : List (List Int)) : Prop where
  formula : document.formula = ofIntegers clauses
  isIndex : ∀ value ∈ clauses.flatten, IsIndex value
  within : ∀ value ∈ clauses.flatten, (value.natAbs : Int) ≤ document.atomCount
  total : document.clauseCount = clauses.length
  atomCount : Text.Fits document.atomCount
  clauseCount : Text.Fits document.clauseCount
  comments : ∀ comment ∈ document.comments, '\n' ∉ comment.toList ∧ stripped comment = comment

/-- Groups hold the values that are not zero. -/
theorem mem_of_mem_groups {values : List Int} {value : Int} (inside : value ∈ (groups values).flatten) :
    value ∈ values ∧ value ≠ 0 := by
  obtain ⟨group, cut, member⟩ := List.mem_flatten.mp inside
  rw [groups] at cut
  split at cut
  · exact Text.mem_of_mem_splitOn (List.dropLast_subset _ cut) member
  · exact Text.mem_of_mem_splitOn cut member

theorem fits_of_tokens {tokens : List (List Char)} {values : List Int}
    (read : tokens.mapM Text.readInteger? = some values) : ∀ value ∈ values, Text.Fits value := by
  intro value member
  obtain ⟨token, _, found⟩ := exists_of_mem_mapM read member
  exact Text.fits_of_readInteger? found

theorem comment_of_mem_commentTexts {text : List Char} {comment : String}
    (member : comment ∈ commentTexts (contentLines text)) :
    '\n' ∉ comment.toList ∧ stripped comment = comment := by
  obtain ⟨line, kept, rfl⟩ := List.mem_map.mp member
  have content : line ∈ contentLines text := (List.mem_filter.mp kept).1
  have full := (List.mem_filter.mp ((List.takeWhile_sublist _).subset content)).1
  obtain ⟨piece, cut, rfl⟩ := List.mem_map.mp full
  constructor
  · rw [String.toList_ofList]
    intro inside
    have inPiece := Text.mem_of_mem_strip (List.mem_of_mem_tail (Text.mem_of_mem_strip inside))
    exact (Text.mem_of_mem_splitOn cut inPiece).2 rfl
  · rw [stripped, String.toList_ofList, Text.strip_strip]

/-- Whatever text it was read from, a document holds the formula of some integers. -/
theorem exists_holds_of_parse {text : String} {document : Document}
    (read : parse text = .ok document) : ∃ clauses, document.Holds clauses := by
  obtain ⟨header, body, values, conforms, formula, comments⟩ := parse_eq_ok_iff.mp read
  obtain ⟨_, _, _, _, readAtoms, readClauses⟩ := conforms.counts
  refine ⟨groups values, formula, ?_, ?_, conforms.total.symm, Text.fits_of_readInteger? readAtoms,
    Text.fits_of_readInteger? readClauses, ?_⟩
  · intro value inside
    obtain ⟨member, nonzero⟩ := mem_of_mem_groups inside
    exact ⟨nonzero, fits_of_tokens conforms.tokens value member⟩
  · intro value inside
    obtain ⟨member, nonzero⟩ := mem_of_mem_groups inside
    exact conforms.within value member nonzero
  · intro comment member
    exact comment_of_mem_commentTexts (comments ▸ member)

end Clausal.Dimacs
