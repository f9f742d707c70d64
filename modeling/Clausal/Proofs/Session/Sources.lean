import Clausal.Proofs.Dimacs.Grammar
import Clausal.Proofs.Session.Storage

/-!
The three ways in which a formula comes in: as a text, as a stream of lines and from a file. They cut
blanks and line ends at different times, and yet they read the same document or fail with the same fault.
-/

set_option autoImplicit false

namespace Clausal

namespace Dimacs

/-- Blanks around the whole text are cut off in the one case and stay in the other. -/
theorem parseStream_eq_parse (text : String) : parseStream text = parse text :=
  (ofLines_lines_strip text.toList).symm

theorem parseFile_eq_parse {text : String} (paired : Text.ReturnsPaired text.toList) :
    parseFile text = parse text := by
  calc
    parseFile text = parseStream text := by
      rw [parseFile, ofLines, Text.map_strip_lines_unifyLineEnds paired, parseStream, ofLines]
    _ = parse text := parseStream_eq_parse text

end Dimacs

namespace Session

variable {session : Session} {path : String}

/-- What a file holds is all that loading depends on; what is logged about it does not show. -/
theorem result_loadFormula {bytes : List UInt8} {text : String}
    (read : session.files.read path = .ok bytes) (decoded : Text.Utf8.decode bytes = .ok text) :
    result (loadFormula path) session = (Dimacs.parseFile text).mapError .dimacs := by
  rw [result, loadFormula, run_bind_of_ok _ (run_get session)]
  simp only [Files.contains_of_read read, read, decoded, orFail_ok, pure_bind]
  cases parsed : Dimacs.parseFile text with
  | error fault =>
      rw [orFail_error]
      exact congrArg Prod.fst (run_bind_of_error _ rfl)
  | ok document =>
      obtain ⟨files, errors, noted⟩ := run_logAll
        [⟨formulaSource, Logging.debug,
          "Parsed DIMACS formula: " ++ toString document.atomCount ++ " variables, "
            ++ toString document.clauseCount ++ " clauses, width " ++ toString document.width⟩] session
      rw [orFail_ok, pure_bind]
      exact congrArg Prod.fst (run_bind_of_ok _ noted)

/-- A text, a stream of it and a file that holds it in UTF-8 give the same document, or the same fault
with the same message. Only a carriage return without a line feed would end a line in the file alone. -/
theorem formula_sources_agree (text : String) (paired : Text.ReturnsPaired text.toList)
    (session : Session) (path : String)
    (stored : session.files.read path = .ok (Text.Utf8.encode text)) :
    (∃ document, Dimacs.parse text = .ok document ∧ Dimacs.parseStream text = .ok document ∧
        result (loadFormula path) session = .ok document) ∨
      ∃ fault, Dimacs.parse text = .error fault ∧ Dimacs.parseStream text = .error fault ∧
        result (loadFormula path) session = .error (.dimacs fault) ∧
        (Fault.dimacs fault).kind = "ValueError" ∧
        (Fault.dimacs fault).message = fault.message := by
  have loaded : result (loadFormula path) session = (Dimacs.parse text).mapError .dimacs := by
    rw [result_loadFormula stored (Text.Utf8.decode_encode text), Dimacs.parseFile_eq_parse paired]
  have streamed := Dimacs.parseStream_eq_parse text
  cases parsed : Dimacs.parse text with
  | ok document =>
      rw [parsed] at loaded streamed
      exact .inl ⟨document, rfl, streamed, loaded⟩
  | error fault =>
      rw [parsed] at loaded streamed
      exact .inr ⟨fault, rfl, streamed, loaded, rfl, rfl⟩

/-- Blanks of several kinds stand around the lines, which end in both ways. -/
theorem formula_sources_agree_separated :
    let text := "\r\n\x0cc note\u0085\r\np cnf 2 1\n1 -2\u2028"
    let session : Session := { files := { entries := [(["in.cnf"], .file (Text.Utf8.encode text))] } }
    let document : Dimacs.Document := ⟨Dimacs.ofIntegers [[1, -2]], 2, 1, ["note"]⟩
    Text.ReturnsPaired text.toList ∧ session.files.read "in.cnf" = .ok (Text.Utf8.encode text) ∧
      Dimacs.parse text = .ok document ∧ Dimacs.parseStream text = .ok document ∧
      result (loadFormula "in.cnf") session = .ok document := by
  intro text session document
  have paired : Text.ReturnsPaired text.toList := by decide
  have stored : session.files.read "in.cnf" = .ok (Text.Utf8.encode text) := rfl
  have parsed : Dimacs.parse text = .ok document := by decide
  rcases formula_sources_agree text paired session "in.cnf" stored with
    ⟨found, read, streamed, loaded⟩ | ⟨fault, failed, _⟩
  · cases parsed.symm.trans read
    exact ⟨paired, stored, parsed, streamed, loaded⟩
  · cases parsed.symm.trans failed

end Session

end Clausal
