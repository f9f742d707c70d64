import Clausal.Assoc
import Clausal.Text.Integer

/-!
Command-line arguments: the formula's file, an optional output file, and options. Long options may be
shortened to a beginning that no other option shares, values follow an option or its equals sign, and
after two hyphens no word is an option.
-/

set_option autoImplicit false

namespace Clausal.Command

inductive Flag where
  | help
  | solver
  | budget
  | seed
  | config
  | logDirectory
  | verbose
  deriving DecidableEq

/-- The spellings of the options, in the order in which they are searched. -/
def spellings : List (String × Flag) :=
  [
    ("-h", .help), ("--help", .help), ("--solver", .solver), ("--budget", .budget),
    ("--seed", .seed), ("--config", .config), ("--log-dir", .logDirectory),
    ("--verbose", .verbose), ("-v", .verbose)
  ]

/-- All spellings of an option, as it is named in messages. -/
def Flag.title (flag : Flag) : String :=
  String.intercalate "/" ((spellings.filter fun spelling => spelling.2 = flag).map Prod.fst)

def Flag.takesValue : Flag → Bool
  | .help => false
  | .verbose => false
  | _ => true

def solverChoices : List String := ["auto", "dpll", "2sat", "random_walk"]

structure Arguments where
  formula : String
  output : Option String := none
  solver : Option String := none
  budget : Option Int := none
  seed : Option Int := none
  config : Option String := none
  logDirectory : Option String := none
  verbose : Bool := false
  deriving DecidableEq

inductive Refusal where
  /-- Help was asked for. -/
  | help
  /-- A shortened option could be any of several. -/
  | ambiguous (word : String) (spellings : List String)
  | noValue (flag : Flag)
  /-- A value was given to an option that has none. -/
  | excessValue (flag : Flag) (value : String)
  | noInteger (flag : Flag) (value : String)
  | noChoice (flag : Flag) (value : String)
  | noFormula
  | unknown (words : List String)
  deriving DecidableEq

def usage : String :=
  "usage: satengine [-h] [--solver NAME] [--budget N] [--seed N] [--config FILE] [--log-dir DIR] "
    ++ "[--verbose] cnf_file [output]"

namespace Refusal

def inArgument (flag : Flag) (text : String) : String := "argument " ++ flag.title ++ ": " ++ text

def message : Refusal → String
  | .help => ""
  | .ambiguous word spellings =>
      "ambiguous option: " ++ word ++ " could match " ++ String.intercalate ", " spellings
  | .noValue flag => inArgument flag "expected one argument"
  | .excessValue flag value =>
      inArgument flag ("ignored explicit argument " ++ Text.quoted value)
  | .noInteger flag value => inArgument flag ("invalid int value: " ++ Text.quoted value)
  | .noChoice flag value =>
      inArgument flag
        ("invalid choice: " ++ Text.quoted value ++ " (choose from "
          ++ String.intercalate ", " (solverChoices.map Text.quoted) ++ ")")
  | .noFormula => "the following arguments are required: cnf_file"
  | .unknown words => "unrecognized arguments: " ++ String.intercalate " " words

end Refusal

inductive Attached where
  | nothing
  /-- A value behind an equals sign. -/
  | value (text : String)
  /-- What follows the letter of an option with a single hyphen. -/
  | letters (text : String)
  deriving DecidableEq

/-- An option as it was read: the option, if there is such a one, and what is attached to it. -/
structure Reading where
  flag : Option Flag
  attached : Attached
  deriving DecidableEq

inductive Word where
  | operand (text : String)
  /-- The two hyphens after which every word is an operand. -/
  | separator
  | option (text : String) (reading : Reading)
  deriving DecidableEq

def Word.text : Word → String
  | .operand text => text
  | .separator => "--"
  | .option text _ => text

def cutAtEquals (text : List Char) : List Char × Attached :=
  let before := text.takeWhile (· ≠ '=')
  match text.drop before.length with
  | [] => (before, .nothing)
  | _ :: value => (before, .value (String.ofList value))

/-- Whether a text looks like a negative number. A line end may follow it. -/
def isNegativeNumber (text : List Char) : Bool :=
  let text := if text.getLast? = some '\n' then text.dropLast else text
  let isDigit := fun (c : Char) => (Text.decimalValue? c).isSome
  match text with
  | '-' :: digits =>
      let rest := digits.dropWhile isDigit
      match rest with
      | [] => !digits.isEmpty
      | '.' :: fraction => !fraction.isEmpty && fraction.all isDigit
      | _ => false
  | _ => false

/-- The readings of a word that begins with a hyphen and is no spelling of an option: by a beginning of a
long option, or by the single letter of a short one with more behind it. -/
def abbreviated (text : List Char) : List (String × Reading) :=
  match text with
  | '-' :: '-' :: _ =>
      let (front, attached) := cutAtEquals text
      (spellings.filter fun spelling => front.isPrefixOf spelling.1.toList).map
        fun (spelling, flag) => (spelling, ⟨some flag, attached⟩)
  | _ =>
      spellings.filterMap fun (spelling, flag) =>
        if spelling.toList = text.take 2 then
          some (spelling, ⟨some flag, .letters (String.ofList (text.drop 2))⟩)
        else if text.isPrefixOf spelling.toList then some (spelling, ⟨some flag, .nothing⟩)
        else none

def spelled? (text : List Char) (attached : Attached) : Option Reading :=
  (Assoc.get? (String.ofList text) spellings).map fun flag => ⟨some flag, attached⟩

/-- Reads a word as an option; `none` when it is an operand. Negative numbers and words with a blank are
operands unless they begin like an option. -/
def readOption (text : List Char) : Except Refusal (Option Reading) :=
  if text.head? ≠ some '-' then .ok none
  else
    match spelled? text .nothing with
    | some reading => .ok (some reading)
    | none =>
        if text.length = 1 then .ok none
        else
          let (front, attached) := cutAtEquals text
          match spelled? front attached with
          | some reading => .ok (some reading)
          | none =>
              match abbreviated text with
              | [(_, reading)] => .ok (some reading)
              | [] =>
                  if isNegativeNumber text || text.contains ' ' then .ok none
                  else .ok (some ⟨none, .nothing⟩)
              | several => .error (.ambiguous (String.ofList text) (several.map Prod.fst))

def readWords : List String → Except Refusal (List Word)
  | [] => .ok []
  | text :: rest =>
      if text = "--" then .ok (.separator :: rest.map .operand)
      else do
        let word ← (readOption text.toList).map fun reading =>
          match reading with
          | none => Word.operand text
          | some reading => .option text reading
        let words ← readWords rest
        return word :: words

/-- The arguments read so far, with the files and the words that nothing was made of. -/
structure Progress where
  arguments : Arguments
  files : Option (String × Option String)
  unknown : List String

def Arguments.setValue (arguments : Arguments) (flag : Flag) (value : String) :
    Except Refusal Arguments :=
  match flag with
  | .help => .error .help
  | .verbose => .ok { arguments with verbose := true }
  | .config => .ok { arguments with config := some value }
  | .logDirectory => .ok { arguments with logDirectory := some value }
  | .solver =>
      if solverChoices.contains value then .ok { arguments with solver := some value }
      else .error (.noChoice flag value)
  | .budget =>
      match Text.readInteger? value.toList with
      | some number => .ok { arguments with budget := some number }
      | none => .error (.noInteger flag value)
  | .seed =>
      match Text.readInteger? value.toList with
      | some number => .ok { arguments with seed := some number }
      | none => .error (.noInteger flag value)

/-- The options without values that are run together behind one hyphen: the first, and those whose
letters follow. From the first letter on that belongs to no option they make up an unknown word. -/
def runTogether (flag : Flag) : List Char → Except Refusal (List Flag × Option String)
  | [] => .ok ([flag], none)
  | '-' :: rest => .error (.excessValue flag (String.ofList ('-' :: rest)))
  | '=' :: rest => .error (.excessValue flag (String.ofList rest))
  | letter :: rest =>
      match Assoc.get? (String.ofList ['-', letter]) spellings with
      | none => .ok ([flag], some (String.ofList ('-' :: letter :: rest)))
      | some next => do
          let (others, unknown) ← runTogether next rest
          return (flag :: others, unknown)

/-- Takes an option, with its value if it has one. Returns the words after them. -/
def takeOption (progress : Progress) (text : String) (reading : Reading) (rest : List Word) :
    Except Refusal (Progress × List Word) := do
  match reading.flag with
  | none => return ({ progress with unknown := progress.unknown ++ [text] }, rest)
  | some flag =>
      if flag.takesValue then
        match reading.attached, rest with
        | .value value, _ =>
            return ({ progress with arguments := ← progress.arguments.setValue flag value }, rest)
        | .nothing, .operand value :: rest =>
            return ({ progress with arguments := ← progress.arguments.setValue flag value }, rest)
        | _, _ => .error (.noValue flag)
      else
        let (flags, unknown) ← match reading.attached with
          | .nothing => pure ([flag], none)
          | .value value => .error (.excessValue flag value)
          | .letters letters => runTogether flag letters.toList
        let arguments ← flags.foldlM (fun arguments flag => arguments.setValue flag "")
          progress.arguments
        return ({ progress with arguments, unknown := progress.unknown ++ unknown.toList }, rest)

theorem length_takeOption {progress later : Progress} {text : String} {reading : Reading}
    {rest after : List Word} (taken : takeOption progress text reading rest = .ok (later, after)) :
    after.length ≤ rest.length := by
  unfold takeOption at taken
  simp only [bind, Except.bind, pure, Except.pure] at taken
  repeat' split at taken
  all_goals grind

def Word.isSeparator : Word → Bool
  | .separator => true
  | _ => false

def Word.isOption : Word → Bool
  | .option _ _ => true
  | _ => false

/-- The text of the first of some words that is left when one separator is taken out. -/
def operandOf (words : List Word) : Option String :=
  ((words.map Word.text).erase "--").head?

/-- Takes the operands at the head of the words as files: the formula's, and the output if a second operand
follows directly. Separators around them go with them. `none` when there is no operand. -/
def takeFiles? (words : List Word) : Option ((String × Option String) × List Word) :=
  let before := words.takeWhile Word.isSeparator
  match words.drop before.length with
  | .operand text :: rest =>
      let between := rest.takeWhile Word.isSeparator
      let formula := (operandOf (before ++ .operand text :: between)).getD text
      match rest.drop between.length with
      | .operand output :: rest =>
          some ((formula, operandOf [.operand output]), rest.dropWhile Word.isSeparator)
      | rest => some ((formula, none), rest)
  | _ => none

theorem length_takeFiles? {words rest : List Word} {files : String × Option String}
    (taken : takeFiles? words = some (files, rest)) : rest.length < words.length := by
  unfold takeFiles? at taken
  simp only at taken
  split at taken
  · next text after shape =>
      have length := congrArg List.length shape
      simp only [List.length_drop, List.length_cons] at length
      split at taken
      · next output later laterShape =>
          have laterLength := congrArg List.length laterShape
          simp only [List.length_drop, List.length_cons] at laterLength
          cases taken
          have shorter := (List.dropWhile_sublist Word.isSeparator (l := later)).length_le
          omega
      · cases taken
        simp only [List.length_drop]
        omega
  · cases taken

/-- Takes the files at the head of the words, unless they have been taken. -/
def takePending? (progress : Progress) (words : List Word) : Option (Progress × List Word) :=
  match progress.files with
  | some _ => none
  | none => (takeFiles? words).map fun (files, rest) => ({ progress with files := some files }, rest)

theorem length_takePending? {progress later : Progress} {words rest : List Word}
    (taken : takePending? progress words = some (later, rest)) : rest.length < words.length := by
  unfold takePending? at taken
  split at taken
  · cases taken
  · obtain ⟨⟨files, after⟩, found, same⟩ := Option.map_eq_some_iff.mp taken
    cases same
    exact length_takeFiles? found

/-- Takes words from the left. Files are taken where operands come up for the first time; later operands
are unknown. -/
def takeWords (progress : Progress) : List Word → Except Refusal Progress
  | [] => .ok progress
  | .option text reading :: rest =>
      match _taken : takeOption progress text reading rest with
      | .error refusal => .error refusal
      | .ok (later, after) => takeWords later after
  | word :: rest =>
      match _taken : takePending? progress (word :: rest) with
      | some (later, after) => takeWords later after
      | none => takeWords { progress with unknown := progress.unknown ++ [word.text] } rest
termination_by words => words.length
decreasing_by
  · have shorter := length_takeOption _taken
    simp only [List.length_cons]
    omega
  · exact length_takePending? _taken
  · simp

def Arguments.read (line : List String) : Except Refusal Arguments := do
  let words ← readWords line
  let progress ← takeWords ⟨{ formula := "" }, none, []⟩ words
  match progress.files with
  | none => throw .noFormula
  | some (formula, output) =>
      if progress.unknown.isEmpty then return { progress.arguments with formula, output }
      else throw (.unknown progress.unknown)

end Clausal.Command
