import Clausal.Proofs.Dimacs.Document

/-!
Which problem lines are accepted. Of the first word only the first letter counts, the number of clauses
cannot be negative, and a negative number of variables is refused by the first literal and by nothing else.
-/

set_option autoImplicit false

namespace Clausal.Dimacs

variable {text header : List Char} {body : List (List Char)} {values : List Int}
  {atomCount clauseCount : Int}

theorem Conforms.clauseCount_nonneg
    (conforms : Conforms text header body atomCount clauseCount values) : 0 ≤ clauseCount := by
  rw [← conforms.total]
  exact Int.natCast_nonneg _

/-- No literal fits into fewer than no variables. -/
theorem Conforms.eq_nil_of_mem_groups
    (conforms : Conforms text header body atomCount clauseCount values) (negative : atomCount < 0) :
    ∀ group ∈ groups values, group = [] := by
  intro group cut
  apply List.eq_nil_iff_forall_not_mem.mpr
  intro value inside
  obtain ⟨member, nonzero⟩ := mem_of_mem_groups (List.mem_flatten_of_mem cut inside)
  have within := conforms.within value member nonzero
  omega

/-- A line that begins with a letter has a first word that begins with this letter. -/
theorem head?_of_words_cons {character : Char} {rest word : List Char} {others : List (List Char)}
    (visible : Text.isBlank character = false) (cut : Text.words (character :: rest) = word :: others) :
    word.head? = some character := by
  obtain ⟨initial, later, pieces⟩ := List.exists_cons_of_ne_nil (List.splitOnP_ne_nil Text.isBlank rest)
  have split : Text.words (character :: rest) =
      (character :: initial) :: later.filter fun word => !word.isEmpty := by
    rw [Text.words, List.splitOnP_cons_eq_if_modifyHead, if_neg (by simp [visible]), pieces]
    rfl
  rw [split] at cut
  cases cut
  rfl

theorem clauses_of_negative {document : Document}
    (conforms : Conforms text header body document.atomCount document.clauseCount values)
    (built : document.formula = ofIntegers (groups values)) (negative : document.atomCount < 0) :
    ∀ clause ∈ document.formula.clauses, clause.literals = [] := by
  rw [built]
  intro clause member
  obtain ⟨literals, listed, rfl⟩ := List.mem_map.mp member
  obtain ⟨group, cut, rfl⟩ := List.mem_map.mp listed
  rw [conforms.eq_nil_of_mem_groups negative group cut]
  rfl

/-- The first word of the header is the letter p alone, and the counts that it declares are not negative. -/
def HeaderInOrder (text : String) (document : Document) : Prop :=
  ∃ header body declared counted,
    dataLines (contentLines text.toList) = header :: body ∧
      Text.words header = [['p'], "cnf".toList, declared, counted] ∧
      Text.readInteger? declared = some document.atomCount ∧
      Text.readInteger? counted = some document.clauseCount ∧
      0 ≤ document.atomCount ∧ 0 ≤ document.clauseCount

/-- The header of a text that is accepted has four words, of which the second names the format and those
behind it are the counts. It is in order unless its first word goes on behind the letter p, or there are no
literals and the declared number of variables is negative. -/
theorem accepted_header_form (text : String) (document : Document) (read : parse text = .ok document) :
    ∃ header body first declared counted,
      dataLines (contentLines text.toList) = header :: body ∧
      Text.words header = [first, "cnf".toList, declared, counted] ∧
      first.head? = some 'p' ∧
      Text.readInteger? declared = some document.atomCount ∧
      Text.readInteger? counted = some document.clauseCount ∧
      0 ≤ document.clauseCount ∧
      (HeaderInOrder text document ↔
        first = ['p'] ∧
          ((∀ clause ∈ document.formula.clauses, clause.literals = []) → 0 ≤ document.atomCount)) := by
  obtain ⟨header, body, values, conforms, built, _⟩ := parse_eq_ok_iff.mp read
  obtain ⟨first, declared, counted, words, readAtoms, readClauses⟩ := conforms.counts
  obtain ⟨rest, shape⟩ := List.head?_eq_some_iff.mp conforms.begins
  have letter : first.head? = some 'p' := head?_of_words_cons (by decide) (shape ▸ words)
  refine ⟨header, body, first, declared, counted, conforms.lines, words, letter, readAtoms, readClauses,
    conforms.clauseCount_nonneg, ?_⟩
  constructor
  · intro inOrder
    obtain ⟨_, _, _, _, sameLines, sameWords, _, _, atoms, _⟩ := inOrder
    cases conforms.lines.symm.trans sameLines
    cases words.symm.trans sameWords
    exact ⟨rfl, fun _ => atoms⟩
  · intro both
    obtain ⟨rfl, unlessNegative⟩ := both
    have atoms : 0 ≤ document.atomCount := by
      by_contra negative
      exact negative (unlessNegative (clauses_of_negative conforms built (Int.not_le.mp negative)))
    exact ⟨header, body, declared, counted, conforms.lines, words, readAtoms, readClauses, atoms,
      conforms.clauseCount_nonneg⟩

theorem accepted_header_form_malformed :
    (∃ document, parse "problem cnf 1 1\n1 0" = .ok document ∧
      ¬ HeaderInOrder "problem cnf 1 1\n1 0" document) ∧
    ∃ document, parse "p cnf -7 2\n0 0" = .ok document ∧ ¬ HeaderInOrder "p cnf -7 2\n0 0" document := by
  constructor
  · have read : parse "problem cnf 1 1\n1 0" = .ok ⟨ofIntegers [[1]], 1, 1, []⟩ := by decide +kernel
    have lines : dataLines (contentLines "problem cnf 1 1\n1 0".toList) =
        ["problem cnf 1 1".toList, "1 0".toList] := by decide +kernel
    have pieces : Text.words "problem cnf 1 1".toList =
        ["problem".toList, "cnf".toList, "1".toList, "1".toList] := by decide +kernel
    refine ⟨_, read, fun inOrder => ?_⟩
    obtain ⟨header, body, first, _, _, headed, words, _, _, _, _, met⟩ := accepted_header_form _ _ read
    cases lines.symm.trans headed
    obtain ⟨rfl, _⟩ := met.mp inOrder
    have alone : "problem".toList = ['p'] := (List.cons.inj (pieces.symm.trans words)).1
    exact absurd alone (by decide)
  · have read : parse "p cnf -7 2\n0 0" = .ok ⟨ofIntegers [[], []], -7, 2, []⟩ := by decide +kernel
    refine ⟨_, read, fun inOrder => ?_⟩
    obtain ⟨_, _, _, _, _, _, _, _, _, _, _, met⟩ := accepted_header_form _ _ read
    exact absurd ((met.mp inOrder).2 (by decide)) (by decide)

end Clausal.Dimacs
